import RedGreen.Console.Emoji
import RedGreen.Console.Literal

/-!
# Markup

Text for the console is styled by tags in square brackets, `[red]` to open a style and `[/red]`
or `[/]` to close it.  A backslash in front of a tag makes it plain text.  The console has no
colours here, so rendering drops the tags; a closing tag that closes nothing is still an error.
A tag whose name starts with an at sign is for clicks, and its parameters are read when it is
closed.
-/

namespace RedGreen

namespace Markup

def backslash : CodePoint := CodePoint.ofChar '\\'

def openBracket : CodePoint := CodePoint.ofChar '['

def closeBracket : CodePoint := CodePoint.ofChar ']'

inductive Segment where
  | plain (t : Text)
  | bracketed (backslashes : Nat) (body : Text)
  deriving DecidableEq

/-! ## Reading -/

def startsTag (c : CodePoint) : Bool :=
  c.between 0x61 0x7A || c = CodePoint.ofChar '#' || c = CodePoint.ofChar '/' ||
  c = CodePoint.ofChar '@'

/-- The text up to the next closing bracket, and what follows that.  No bracket opens in it. -/
def untilClose : Text → Option (Text × Text)
  | [] => none
  | c :: t =>
    if c = closeBracket then some ([], t)
    else if c = openBracket then none
    else (untilClose t).map fun p => (c :: p.1, p.2)

/-- The body of the tag at the start of a text, and what follows the tag. -/
def tag? : Text → Option (Text × Text)
  | b :: c :: t => if b = openBracket && startsTag c then untilClose (c :: t) else none
  | _ => none

theorem length_untilClose {t : Text} {p : Text × Text} (h : untilClose t = some p) :
    p.2.length < t.length := by
  induction t generalizing p with
  | nil => simp [untilClose] at h
  | cons c t ih =>
    simp only [untilClose] at h
    split at h
    · cases h; simp
    · split at h
      · cases h
      · obtain ⟨q, hq, rfl⟩ := Option.map_eq_some_iff.1 h
        have := ih hq
        simp only [List.length_cons]
        omega

theorem length_tag? {t : Text} {p : Text × Text} (h : tag? t = some p) :
    p.2.length < t.length := by
  match t with
  | [] => simp [tag?] at h
  | [_] => simp [tag?] at h
  | b :: c :: t =>
    simp only [tag?] at h
    split at h
    · have := length_untilClose h
      simp only [List.length_cons] at *
      omega
    · cases h

theorem length_dropWhile_le (p : CodePoint → Bool) (t : Text) :
    (t.dropWhile p).length ≤ t.length := by
  induction t with
  | nil => simp
  | cons c t ih =>
    simp only [List.dropWhile_cons]
    split
    · simp only [List.length_cons]; omega
    · simp

def consPlain (c : CodePoint) : List Segment → List Segment
  | .plain t :: more => .plain (c :: t) :: more
  | segments => .plain [c] :: segments

def segments : Text → List Segment
  | [] => []
  | c :: t =>
    match _h : tag? ((c :: t).dropWhile fun d => d = backslash) with
    | some (body, rest) =>
      .bracketed ((c :: t).takeWhile fun d => d = backslash).length body :: segments rest
    | none => consPlain c (segments t)
termination_by t => t.length
decreasing_by
  · have := length_tag? _h
    have := length_dropWhile_le (fun d => d = backslash) (c :: t)
    simp only [List.length_cons] at *
    omega
  · simp

/-! ## Escaping -/

def bracket (body : Text) : Text := openBracket :: body ++ [closeBracket]

/-- A segment as plain text: a tag gets twice as many backslashes, and one more. -/
def escapeSegment : Segment → Text
  | .plain t => t
  | .bracketed n body => List.replicate (2 * n + 1) backslash ++ bracket body

/-- A backslash behind a text that ends in a single one. -/
def escapeEnd (t : Text) : Text :=
  match t.reverse with
  | [c] => if c = backslash then t ++ [backslash] else t
  | c :: d :: _ => if c = backslash ∧ d ≠ backslash then t ++ [backslash] else t
  | [] => t

def escape (t : Text) : Text := escapeEnd ((segments t).flatMap escapeSegment)

/-! ## Rendering -/

/-- Why markup cannot be rendered. -/
inductive RenderError where
  /-- A tag closes a style that is not open. -/
  | unopened (tag : Text) (position : Nat)
  /-- A tag closes the last style, but none is open. -/
  | nothingOpen (position : Nat)
  /-- A tag for clicks is closed, and its parameters are no literals. -/
  | unreadable (parameters : Text)
  deriving DecidableEq

namespace RenderError

def message : RenderError → Text
  | .unopened tag position =>
    ("closing tag '" : Text) ++ bracket tag ++ ("' at position " : Text) ++ Text.ofNat position ++
      (" doesn't match any open tag" : Text)
  | .nothingOpen position =>
    ("closing tag '[/]' at position " : Text) ++ Text.ofNat position ++
      (" has nothing to close" : Text)
  | .unreadable parameters => ("error parsing " : Text) ++ Literal.complaint parameters

end RenderError

def fullNames : List (String × String) :=
  [("d", "dim"), ("b", "bold"), ("i", "italic"), ("u", "underline"), ("r", "reverse"),
   ("c", "conceal"), ("s", "strike"), ("uu", "underline2"), ("o", "overline")]

def styleName (t : Text) : Text :=
  let name := t.trim.toLowerAscii
  match fullNames.find? fun entry => Text.ofString entry.1 = name with
  | some entry => entry.2
  | none => name

def tagName (body : Text) : Text := body.takeWhile fun c => decide (c ≠ CodePoint.ofChar '=')

/-- What stands behind the equals sign of a tag, if there is one. -/
def tagParameters (body : Text) : Text :=
  (body.dropWhile fun c => decide (c ≠ CodePoint.ofChar '=')).drop 1

/-- A style that a tag has opened. -/
structure OpenStyle where
  name : Text
  parameters : Text
  deriving DecidableEq

namespace OpenStyle

def ofTag (body : Text) : OpenStyle := ⟨styleName (tagName body), tagParameters body⟩

/-- Closes a style in front of the styles `outer`. -/
def close (style : OpenStyle) (outer : List OpenStyle) : Except RenderError (List OpenStyle) :=
  if style.name.startsWith "@" && !Literal.accepts style.parameters then
    .error (.unreadable style.parameters)
  else .ok outer

end OpenStyle

/-- Characters that a terminal would act upon: the bell, and moves back, down and to the start of
the line. -/
def isMove (c : CodePoint) : Bool :=
  c.val == 7 || c.val == 8 || c.val == 11 || c.val == 12 || c.val == 13

/-- A backslash in front of a bracket that opens no tag is dropped. -/
def dropEscapes : Text → Text
  | [] => []
  | [c] => [c]
  | c :: d :: t =>
    if c = backslash ∧ d = openBracket then d :: dropEscapes t else c :: dropEscapes (d :: t)

def shown (t : Text) : Text :=
  (Emoji.replace (dropEscapes t)).filter fun c => !isMove c

/-- The open styles after a tag, the last one first. -/
def follow (position : Nat) (styles : List OpenStyle) (body : Text) :
    Except RenderError (List OpenStyle) :=
  match Text.dropLead? "/" (tagName body) with
  | none => .ok (.ofTag body :: styles)
  | some name =>
    if name.isBlank then
      match styles with
      | [] => .error (.nothingOpen position)
      | style :: outer => style.close outer
    else
      let fits := fun style : OpenStyle => decide (style.name = styleName name)
      match styles.find? fits with
      | some style => style.close (styles.eraseP fits)
      | none => .error (.unopened body position)

/-- The text that segments show.  An even number of backslashes leaves a tag a tag. -/
def renderFrom (position : Nat) (styles : List OpenStyle) :
    List Segment → Except RenderError Text
  | [] => .ok []
  | .plain t :: more => do
    let rest ← renderFrom (position + t.length) styles more
    return shown t ++ rest
  | .bracketed n body :: more => do
    let next := position + n + body.length + 2
    let kept := List.replicate (n / 2) backslash
    if n % 2 = 1 then
      let rest ← renderFrom next styles more
      return kept ++ shown (bracket body) ++ rest
    else
      let styles ← follow (position + n) styles body
      let rest ← renderFrom next styles more
      return kept ++ rest

def render (t : Text) : Except RenderError Text := renderFrom 0 [] (segments t)

end Markup

end RedGreen
