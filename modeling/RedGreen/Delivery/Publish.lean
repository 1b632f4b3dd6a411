import RedGreen.Delivery.Exchange

/-!
# Delivering a record

A record is sent until a request is delivered or refused for good, or until there have been as
many attempts as are allowed; the waits in between double up to a bound.  The circuit breaker
is asked first and learns in the end whether the record was delivered.
-/

namespace RedGreen

namespace Delivery

/-- The wait after the failed attempt with the given number, or `none` when its doubling is
beyond all numbers. -/
def backoff (d : Settings.Delivery) (attempt : Int) : Option Binary64 :=
  let exponent := attempt - 1
  let factor? : Option Binary64 :=
    if 1024 ≤ exponent then none
    else if exponent < -1074 then some .zero
    else if 0 ≤ exponent then some (.ofNat (twoTo exponent.toNat))
    else some (.ofRatio false 1 (twoTo exponent.natAbs))
  factor?.map fun factor =>
    let delay := d.backoffBase.mul factor
    if Binary64.lt d.backoffMax delay then d.backoffMax else delay

/-! ## The diagnostic trail -/

inductive Level where
  | info
  | warning
  | error
  deriving DecidableEq

namespace Level

def name : Level → Text
  | .info => "INFO"
  | .warning => "WARNING"
  | .error => "ERROR"

end Level

structure Note where
  level : Level
  message : Text
  deriving DecidableEq

namespace Note

def source : Text := "services.commit_tracker.publisher"

/-- The entry without its time. -/
def line (n : Note) : Text :=
  source ++ (" - " : Text) ++ n.level.name ++ (" - " : Text) ++ n.message

end Note

def failedNote (attempt maxAttempts : Nat) (hash reason : Text) : Note :=
  ⟨.warning, ("Publish attempt " : Text) ++ Text.ofNat attempt ++ ("/" : Text) ++
    Text.ofNat maxAttempts ++ (" for " : Text) ++ hash ++ (" failed: " : Text) ++ reason⟩

def publishedNote (attempt : Nat) (hash : Text) : Note :=
  ⟨.info, ("Published " : Text) ++ hash ++ (" in " : Text) ++ Text.ofNat attempt ++
    (" attempt(s)" : Text)⟩

def givingUpNote (attempts : Nat) (hash reason : Text) : Note :=
  ⟨.error, ("Giving up on " : Text) ++ hash ++ (" after " : Text) ++ Text.ofNat attempts ++
    (" attempt(s): " : Text) ++ reason⟩

def circuitOpenNote (hash : Text) : Note :=
  ⟨.warning, ("Circuit open, not publishing " : Text) ++ hash⟩

def openedNote (failures : Int) (cooldown : Binary64) : Note :=
  ⟨.warning, ("Circuit opened after " : Text) ++ Text.ofInt failures ++ (" failures for " : Text) ++
    cooldown.writeFixed 0 ++ ("s" : Text)⟩

/-! ## Attempts -/

inductive Ending where
  | delivered
  | failed (reason : Text)
  | brokenOff (failure : Failure)
  deriving DecidableEq

/-- A series of attempts: how many there were, the waits between them, the notes on them, and
the end. -/
structure Series where
  attempts : Nat
  delays : List Binary64
  notes : List Note
  ending : Ending
  deriving DecidableEq

namespace Series

/-- The series after a failed attempt and a wait in front of it. -/
def behind (note : Note) (delay : Binary64) (s : Series) : Series :=
  { s with delays := delay :: s.delays, notes := note :: s.notes }

end Series

/-- The attempts from number `attempt` on, of which `left` more may follow the first.  The
exchange with number `i` is what becomes of attempt `i + 1`. -/
def attemptFrom (d : Settings.Delivery) (hash : Text) (exchange : Nat → Exchange) :
    (left attempt : Nat) → Series
  | left, attempt =>
    match judge (exchange (attempt - 1)) with
    | .error failure => ⟨attempt, [], [], .brokenOff failure⟩
    | .ok .delivered => ⟨attempt, [], [], .delivered⟩
    | .ok (.final reason) =>
      ⟨attempt, [], [failedNote attempt d.maxAttempts.toNat hash reason], .failed reason⟩
    | .ok (.tryAgain reason) =>
      let note := failedNote attempt d.maxAttempts.toNat hash reason
      match left with
      | 0 => ⟨attempt, [], [note], .failed reason⟩
      | left + 1 =>
        (attemptFrom d hash exchange left (attempt + 1)).behind note
          ((backoff d attempt).getD d.backoffMax)

/-! ## Publishing -/

inductive Status where
  | disabled
  | circuitOpen
  | delivered
  | failed
  deriving DecidableEq

namespace Status

def name : Status → Text
  | .disabled => "disabled"
  | .circuitOpen => "circuit_open"
  | .delivered => "delivered"
  | .failed => "failed"

end Status

structure Result where
  delivered : Bool
  attempts : Nat
  status : Status
  error : Option Text
  deriving DecidableEq

/-- All that a delivery does: its result, the requests that it sent, the waits between them,
the notes on it, the circuit file that it leaves, and how many event ids it took. -/
structure Run where
  result : Except Failure Result
  requests : List Request
  delays : List Binary64
  notes : List Note
  circuit : Disk.File
  idsTaken : Nat

namespace Run

/-- A run that sends nothing. -/
def idle (result : Except Failure Result) (notes : List Note) (circuit : Disk.File)
    (idsTaken : Nat) : Run :=
  ⟨result, [], [], notes, circuit, idsTaken⟩

end Run

/-- Tells the circuit breaker how a series ended; the note says when it opens. -/
def settle (d : Settings.Delivery) (clock : Binary64) (circuit : Disk.File) (hash : Text)
    (s : Series) : Except Failure Result × List Note × Disk.File :=
  match s.ending with
  | .brokenOff failure => (.error failure, [], circuit)
  | .delivered =>
    match Circuit.recordSuccess circuit with
    | .ok circuit =>
      (.ok ⟨true, s.attempts, .delivered, none⟩, [publishedNote s.attempts hash], circuit)
    | .error e => (.error (.circuit e), [], circuit)
  | .failed reason =>
    let opened : List Note := match Circuit.opensAt d.circuit circuit with
      | some failures => [openedNote failures d.cooldown]
      | none => []
    match Circuit.recordFailure d.circuit clock circuit with
    | .ok circuit =>
      (.ok ⟨false, s.attempts, .failed, some reason⟩,
        opened ++ [givingUpNote s.attempts hash reason], circuit)
    | .error e => (.error (.circuit e), opened, circuit)

def send (d : Settings.Delivery) (clock : Binary64) (circuit : Disk.File)
    (exchange : Nat → Exchange) (hash : Text) (request : Request) : Run :=
  let series := attemptFrom d hash exchange (d.maxAttempts.toNat - 1) 1
  let (result, notes, circuit) := settle d clock circuit hash series
  ⟨result, List.replicate series.attempts request, series.delays, series.notes ++ notes, circuit,
    1⟩

/-- The request for a record: where its traces come from is said by the settings. -/
def requestFor (s : Settings) (now : DateTime) (id : Text) (r : Record) :
    Except Failure Request := do
  let source : Ingestion.TraceSource := { Ingestion.TraceSource.standard with
    traceName := s.backend.traceName }
  let batch ← (source.batch now (fun _ => id) [r]).mapError .hash
  let document ← batch.payload.mapError .document
  request s.backend document

/-- Delivers a record, unless delivery is off or the circuit is open. -/
def publish (s : Settings) (now : DateTime) (id : Text) (clock : Binary64) (circuit : Disk.File)
    (exchange : Nat → Exchange) (r : Record) : Run :=
  if !s.delivers then .idle (.ok ⟨false, 0, .disabled, none⟩) [] circuit 0
  else
    match Circuit.allow clock circuit with
    | .error e => .idle (.error (.circuit e)) [] circuit 0
    | .ok false =>
      .idle (.ok ⟨false, 0, .circuitOpen, none⟩) [circuitOpenNote r.commitHash] circuit 0
    | .ok true =>
      match requestFor s now id r with
      | .error (.hash e) => .idle (.error (.hash e)) [] circuit 0
      | .error failure => .idle (.error failure) [] circuit 1
      | .ok request => send s.delivery clock circuit exchange r.commitHash request

end Delivery

end RedGreen
