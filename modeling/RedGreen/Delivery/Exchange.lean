import RedGreen.Delivery.Address
import RedGreen.Digest.Base64
import RedGreen.Ingestion.Batch
import RedGreen.Ingestion.Response
import RedGreen.Settings.Load
import RedGreen.Text.Encoding

/-!
# Requests and their outcomes

A record is sent as one request.  What becomes of the request is judged by one rule: time-outs,
failures of the transport, status 429 and statuses from 500 on may pass and are tried again;
other statuses from 400 on and answers that list errors are final; all else is a delivery.
-/

namespace RedGreen

namespace Delivery

structure Request where
  address : Address
  authorization : Text
  body : Text

namespace Request

def method : Text := "POST"

def contentType : Text := "application/json"

/-- Where batches are taken in, below the base address. -/
def ingestionPath : Text := "api/public/ingestion"

end Request

inductive Exchange where
  | answered (status : Int) (body : Bytes)
  | timedOut (message : Text)
  | unreachable (message : Text)
  /-- A failure of another kind, which is passed on. -/
  | crashed (kind message : Text)
  deriving DecidableEq

inductive Failure where
  | circuit (e : Circuit.LoadError)
  /-- The hash of the commit cannot be encoded. -/
  | hash (e : EncodeError)
  | address (fault : Address.Fault)
  /-- The credentials cannot be encoded. -/
  | credentials (e : EncodeError)
  | document (e : Ingestion.WriteError)
  /-- An integer of the body has no numeral. -/
  | numeral
  /-- The body cannot be encoded. -/
  | body (e : EncodeError)
  | answerTooDeep
  | answerNotListable (kind : Json.Kind)
  | crashed (kind message : Text)
  deriving DecidableEq

namespace Failure

def message : Failure → Text
  | .circuit _ => "cannot convert float infinity to integer"
  | .hash e => e.message
  | .address fault => fault.message
  | .credentials e => e.message
  | .document e => e.message
  | .numeral =>
    ("Exceeds the limit (" : Text) ++ Text.ofNat Json.numeralLimit ++
      (" digits) for integer string conversion; use sys.set_int_max_str_digits() to " : Text) ++
      ("increase the limit" : Text)
  | .body e => e.message
  | .answerTooDeep => Json.ReadError.tooDeep.message
  | .answerNotListable kind => Ingestion.ResponseError.notListableMessage kind
  | .crashed _ message => message

end Failure

inductive Verdict where
  | delivered
  | tryAgain (reason : Text)
  | final (reason : Text)
  deriving DecidableEq

def statusText (status : Int) : Text := ("HTTP " : Text) ++ Text.ofInt status

def reportedLength : Nat := 200

/-- What an answer with a good status says.  An answer that cannot be understood says nothing. -/
def readAnswer (body : Bytes) : Except Failure Ingestion.Response :=
  match Encoding.decodeDocument? body with
  | none => .ok .silent
  | some t =>
    match Json.read t with
    | .error .tooDeep => .error .answerTooDeep
    | .error _ => .ok .silent
    | .ok v =>
      match Ingestion.Response.ofPayload v with
      | .ok r => .ok r
      | .error (.notListable kind) => .error (.answerNotListable kind)
      | .error (.rejected _) => .ok .silent

def rejectionText (errors : List Json.Members) : Text :=
  ("Ingestion rejected events: " : Text) ++ Json.display (.arr (errors.map .obj))

def judgeAnswer (status : Int) (body : Bytes) : Except Failure Verdict :=
  if status = 429 ∨ 500 ≤ status then .ok (.tryAgain (statusText status))
  else if 400 ≤ status then
    .ok (.final (statusText status ++ (": " : Text) ++
      (Utf8.decodeLossy body).take reportedLength))
  else
    (readAnswer body).map fun r =>
      if r.hasErrors then .final (rejectionText r.errors) else .delivered

def judge : Exchange → Except Failure Verdict
  | .answered status body => judgeAnswer status body
  | .timedOut message => .ok (.tryAgain (("Timed out: " : Text) ++ message))
  | .unreachable message => .ok (.tryAgain (("Transport error: " : Text) ++ message))
  | .crashed kind message => .error (.crashed kind message)

/-- How the body of a request is written: escapes only where they must be. -/
def bodyStyle : Json.Style := ⟨Json.escapeRaw, .document⟩

/-- The name and the password for the backend in one header. -/
def authorization (b : Settings.Backend) : Except EncodeError Text := do
  let user ← Text.encode? (b.publicKey.getD [])
  let password ← Text.encode? (b.secretKey.getD [])
  return ("Basic " : Text) ++ Base64.encode (user ++ 0x3A :: password)

/-- The body of a request, which is built last. -/
def bodyOf (document : Json) : Except Failure Text :=
  if document.hasNumerals then
    let body := Json.compact bodyStyle document
    match Text.encode? body with
    | .ok _ => .ok body
    | .error e => .error (.body e)
  else .error .numeral

def request (b : Settings.Backend) (document : Json) : Except Failure Request := do
  let base ← (Address.ofText (b.host.getD [])).mapError .address
  let authorization ← (authorization b).mapError .credentials
  let address ← (base.below Request.ingestionPath).mapError .address
  let body ← bodyOf document
  return ⟨address, authorization, body⟩

end Delivery

end RedGreen
