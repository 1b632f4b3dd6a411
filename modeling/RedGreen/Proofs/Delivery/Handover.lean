import RedGreen.Delivery.Handover
import RedGreen.Proofs.Record.Lines

/-!
# Records handed over

What the hook writes to its child is the line of a record and a line end.  The child decodes it,
trims it, and delivers the very record that was handed over.
-/

namespace RedGreen

namespace Delivery

/-- What is seen of a child that makes this run. -/
def Run.reception (run : Run) : Reception :=
  { requests := run.requests
    delays := run.delays
    notes := keepWritable (run.notes ++ match run.result with
      | .ok _ => []
      | .error failure => [crashNote failure.message])
    circuit := run.circuit }

/-- A child whose input decodes and trims to the line of a record delivers the record. -/
theorem receive_of_ofLine {s : Settings} {now : DateTime} {id : Text} {clock : Binary64}
    {circuit : Disk.File} {exchange : Nat → Exchange} {input : Bytes} {t : Text} {r : Record}
    (decoded : Utf8.decode input = .ok t) (nonempty : t.trim ≠ [])
    (parsed : Record.ofLine now t.trim = .ok r) :
    receive s now id clock circuit exchange input =
      (publish s now id clock circuit exchange r).reception := by
  have more : t.trim.isEmpty = false := by simpa using nonempty
  simp only [receive, decoded, more, parsed, Bool.false_eq_true, if_false]
  -- What the child does from here on is no matter: both sides show the same run.
  generalize publish s now id clock circuit exchange r = run
  obtain ⟨result, requests, delays, notes, after, ids⟩ := run
  cases result <;> rfl

/-- What it means that a line carries a record: it has no line ends, it is read as the value of the
record and parsed as the record, and a child that takes in what the hook wrote delivers it. -/
structure Carries (line : Text) (r : Record) : Prop where
  written : r.toLine = .ok line
  isLine : Text.IsLine line
  read : Json.read line = .ok r.toJson
  parsed : ∀ now, Record.ofLine now line = .ok r
  handedOver : ∀ (s : Settings) (child : Child), s.delivers = true →
    handOver s child .running r = .ok ⟨some child, some (line ++ [CodePoint.ofChar '\n'])⟩
  decoded : Utf8.decode (Utf8.encode (line ++ [CodePoint.ofChar '\n'])) =
    .ok (line ++ [CodePoint.ofChar '\n'])
  trimmed : Text.trim (line ++ [CodePoint.ofChar '\n']) = line
  received : ∀ s now id clock circuit exchange,
    receive s now id clock circuit exchange (Utf8.encode (line ++ [CodePoint.ofChar '\n'])) =
      (publish s now id clock circuit exchange r).reception

/-- Round trip of a record. -/
theorem line_round_trip {r : Record} (valid : r.IsValid) (finite : r.IsFinite)
    (unicode : r.IsUnicode) (minutes : r.OnMinutes) (short : r.HasShortIntegers) :
    ∃ line, Carries line r := by
  have written := Record.toLine_of_isUnicode unicode
  have parsed := fun now => Record.ofLine_line now valid finite minutes short
  have decoded := Record.decode_line unicode
  have trimmed := r.trim_line
  refine ⟨_, written, Json.isLine_compact _, (Record.read_line_iff finite).mpr short, parsed,
    fun s child delivers => ?_, decoded, trimmed, fun s now id clock circuit exchange => ?_⟩
  · rw [handOver, delivers, written]
    rfl
  · refine receive_of_ofLine decoded ?_ ?_
    · rw [trimmed]
      exact List.cons_ne_nil _ _
    · rw [trimmed]
      exact parsed now

theorem line_round_trip_sample : (Record.sample.IsValid ∧ Record.sample.IsFinite ∧
    Record.sample.IsUnicode ∧ Record.sample.OnMinutes ∧ Record.sample.HasShortIntegers) ∧
      ∃ line, Carries line Record.sample := by
  have valid : Record.sample.IsValid := by decide +kernel
  have finite : Record.sample.IsFinite := by decide +kernel
  have unicode : Record.sample.IsUnicode := by decide +kernel
  have minutes : Record.sample.OnMinutes := by decide +kernel
  have short : Record.sample.HasShortIntegers := by decide +kernel
  exact ⟨⟨valid, finite, unicode, minutes, short⟩,
    line_round_trip valid finite unicode minutes short⟩

/-- The two things that do not survive: the seconds of an offset, and integers of more digits than
are converted. -/
theorem line_round_trip_fails :
    (Record.offMinute.IsValid ∧ Record.offMinute.IsFinite ∧ Record.offMinute.IsUnicode ∧
      ∃ line, Record.offMinute.toLine = .ok line ∧
        Record.ofLine Record.offMinute.loggedAt line ≠ .ok Record.offMinute) ∧
    (Record.manyDigits.IsValid ∧ Record.manyDigits.IsFinite ∧ Record.manyDigits.IsUnicode ∧
      ∃ line, Record.manyDigits.toLine = .ok line ∧
        Json.read line ≠ .ok Record.manyDigits.toJson) := by
  have unicode : Record.offMinute.IsUnicode := by decide +kernel
  have unicode' : Record.manyDigits.IsUnicode := by decide +kernel
  have finite : Record.manyDigits.IsFinite := by decide +kernel
  refine ⟨⟨by decide +kernel, by decide +kernel, unicode, _, Record.toLine_of_isUnicode unicode,
    fun read => ?_⟩, by decide +kernel, finite, unicode', _, Record.toLine_of_isUnicode unicode',
    fun read => ?_⟩
  · rw [Record.ofLine_offMinute] at read
    exact Record.offMinute_lost (Except.ok.inj read).symm
  · exact Record.manyDigits_not_short ((Record.read_line_iff finite).mp read)

end Delivery

end RedGreen
