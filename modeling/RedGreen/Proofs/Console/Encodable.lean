import RedGreen.Proofs.Console.Rendering

/-!
# Drawings that can be encoded

Nothing that the console adds to a text is half of a surrogate pair: neither blanks and dots nor the
lines of a table nor emoji.  So whatever is drawn of texts that can be encoded can be encoded.
-/

namespace RedGreen

theorem CodePoint.isScalar_ofChar (c : Char) : (CodePoint.ofChar c).IsScalar := by
  have valid := c.valid
  simp only [UInt32.isValidChar, Nat.isValidChar] at valid
  show c.val.toNat < 0xD800 ∨ 0xDFFF < c.val.toNat
  omega

theorem bind_eq_ok_iff {ε α β : Type} {x : Except ε α} {f : α → Except ε β} {b : β} :
    (x >>= f) = .ok b ↔ ∃ a, x = .ok a ∧ f a = .ok b := by
  cases x with
  | error e => exact iff_of_false nofun fun ⟨_, failed, _⟩ => nomatch failed
  | ok a => exact ⟨fun made => ⟨a, rfl, made⟩, fun ⟨_, same, made⟩ => by cases same; exact made⟩

theorem forall_mem_of_mapM {ε α β : Type} {f : α → Except ε β} {l : List α} {bs : List β}
    {p : β → Prop} (made : l.mapM f = .ok bs) (each : ∀ a ∈ l, ∀ b, f a = .ok b → p b) :
    ∀ b ∈ bs, p b := by
  induction l generalizing bs with
  | nil =>
    cases made
    exact List.forall_mem_nil _
  | cons a l ih =>
    obtain ⟨here, later⟩ := List.forall_mem_cons.mp each
    rw [List.mapM_cons] at made
    obtain ⟨b, first, others⟩ := bind_eq_ok_iff.mp made
    obtain ⟨cs, behind, same⟩ := bind_eq_ok_iff.mp others
    cases same
    exact List.forall_mem_cons.mpr ⟨here b first, ih behind later⟩

namespace Text

section

variable {s t u : Text} {ts : List Text}

theorem isScalar_nil : IsScalar [] := List.forall_mem_nil _

theorem isScalar_singleton {c : CodePoint} (scalar : c.IsScalar) : IsScalar [c] :=
  List.forall_mem_singleton.mpr scalar

theorem IsScalar.append (first : t.IsScalar) (second : u.IsScalar) : (t ++ u).IsScalar :=
  List.forall_mem_append.mpr ⟨first, second⟩

theorem IsScalar.of_subset (scalar : t.IsScalar) (part : u ⊆ t) : u.IsScalar :=
  fun c mem => scalar c (part mem)

theorem IsUnmarked.isScalar (unmarked : t.IsUnmarked) : t.IsScalar :=
  fun c mem => .inl (Nat.lt_trans (unmarked c mem).1 (by decide))

theorem isScalar_replicate {c : CodePoint} (n : Nat) (scalar : c.IsScalar) :
    IsScalar (List.replicate n c) := fun _ mem => List.eq_of_mem_replicate mem ▸ scalar

theorem isScalar_blanks (n : Nat) : (blanks n).IsScalar :=
  isScalar_replicate n (CodePoint.isScalar_ofChar ' ')

theorem isScalar_join (between : s.IsScalar) (each : ∀ t ∈ ts, t.IsScalar) :
    (join s ts).IsScalar := by
  fun_induction join s ts with
  | case1 => exact isScalar_nil
  | case2 t => exact List.forall_mem_singleton.mp each
  | case3 t ts _ ih =>
    obtain ⟨here, later⟩ := List.forall_mem_cons.mp each
    exact (here.append between).append (ih later)

/-! ## Cutting -/

theorem isScalar_splitOn (sep : CodePoint) (scalar : t.IsScalar) :
    ∀ piece ∈ splitOn sep t, piece.IsScalar := by
  fun_induction splitOn sep t with
  | case1 => exact List.forall_mem_singleton.mpr isScalar_nil
  | case2 t ih =>
    exact List.forall_mem_cons.mpr ⟨isScalar_nil, ih (List.forall_mem_cons.mp scalar).2⟩
  | case3 c t _ none ih =>
    exact List.forall_mem_singleton.mpr (isScalar_singleton (List.forall_mem_cons.mp scalar).1)
  | case4 c t _ piece pieces split ih =>
    obtain ⟨here, later⟩ := List.forall_mem_cons.mp scalar
    have each := ih later
    rw [split] at each
    obtain ⟨first, others⟩ := List.forall_mem_cons.mp each
    exact List.forall_mem_cons.mpr ⟨List.forall_mem_cons.mpr ⟨here, first⟩, others⟩

theorem isScalar_expandPieces (column : Nat) (each : ∀ t ∈ ts, t.IsScalar) :
    (expandPieces column ts).IsScalar := by
  fun_induction expandPieces column ts with
  | case1 => exact isScalar_nil
  | case2 _ piece => exact List.forall_mem_singleton.mp each
  | case3 _ piece more _ here gap ih =>
    obtain ⟨first, others⟩ := List.forall_mem_cons.mp each
    exact (first.append (isScalar_blanks _)).append (ih others)

theorem flatten_wordsFrom (t : Text) : (wordsFrom t).flatten = t := by
  fun_induction wordsFrom t <;> simp_all

theorem flatten_words (t : Text) : (words t).flatten = t := by
  have whole := flatten_wordsFrom t
  unfold words
  split
  next first second more found =>
    rw [found] at whole
    split
    · rw [← whole]
      simp
    · exact whole
  next => exact whole

theorem isScalar_words (scalar : t.IsScalar) : ∀ word ∈ words t, word.IsScalar := by
  intro word mem
  refine scalar.of_subset fun c here => ?_
  rw [← flatten_words t]
  exact List.mem_flatten.mpr ⟨word, mem, here⟩

theorem trimRight_subset (t : Text) : trimRight t ⊆ t := by
  intro c mem
  exact List.mem_reverse.mp ((List.dropWhile_sublist _).subset (List.mem_reverse.mp mem))

/-! ## Clusters -/

section

variable {ks : List Cluster}

theorem isScalar_joinCluster (scalar : t.IsScalar) (extra : Nat)
    (each : ∀ k ∈ ks, k.text.IsScalar) : ∀ k ∈ joinCluster t extra ks, k.text.IsScalar := by
  cases ks with
  | nil => exact List.forall_mem_singleton.mpr scalar
  | cons last more =>
    obtain ⟨first, others⟩ := List.forall_mem_cons.mp each
    exact List.forall_mem_cons.mpr ⟨first.append scalar, others⟩

theorem isScalar_clustersFrom (last : Option CodePoint) (each : ∀ k ∈ ks, k.text.IsScalar)
    (scalar : t.IsScalar) : ∀ k ∈ clustersFrom last ks t, k.text.IsScalar := by
  fun_induction clustersFrom last ks t with
  | case1 => exact each
  | case2 => exact isScalar_joinCluster scalar 0 each
  | case3 _ _ c _ d u ih =>
    exact ih (isScalar_joinCluster (scalar.of_subset (by simp)) 0 each)
      (scalar.of_subset fun x mem => by simp [mem])
  | case4 _ _ c t _ _ _ ih | case5 _ _ c t _ _ _ ih | case6 _ _ c t _ _ _ ih =>
    -- A mark without a width of its own, and a selector that widens what it follows, are joined.
    obtain ⟨here, later⟩ := List.forall_mem_cons.mp scalar
    exact ih (isScalar_joinCluster (isScalar_singleton here) _ each) later
  | case7 _ _ c t _ _ _ ih =>
    obtain ⟨here, later⟩ := List.forall_mem_cons.mp scalar
    exact ih (List.forall_mem_cons.mpr ⟨isScalar_singleton here, each⟩) later

theorem isScalar_clusters (scalar : t.IsScalar) : ∀ k ∈ clusters t, k.text.IsScalar :=
  fun k mem => isScalar_clustersFrom none (List.forall_mem_nil _) scalar k (List.mem_reverse.mp mem)

theorem isScalar_takeClusters (width : Nat) (each : ∀ k ∈ ks, k.text.IsScalar) :
    (takeClusters width ks).IsScalar := by
  fun_induction takeClusters width ks with
  | case1 | case2 => exact isScalar_nil
  | case3 => exact isScalar_singleton (CodePoint.isScalar_ofChar ' ')
  | case4 width k more _ _ ih =>
    obtain ⟨first, others⟩ := List.forall_mem_cons.mp each
    exact first.append (ih others)

theorem isScalar_fitCells (width : Nat) (scalar : t.IsScalar) : (fitCells width t).IsScalar := by
  unfold fitCells
  split
  · exact isScalar_takeClusters width (isScalar_clusters scalar)
  · exact scalar.append (isScalar_blanks _)

theorem isScalar_chopClusters (width used : Nat) (scalar : t.IsScalar)
    (each : ∀ k ∈ ks, k.text.IsScalar) :
    ∀ piece ∈ chopClusters width t used ks, piece.IsScalar := by
  fun_induction chopClusters width t used ks with
  | case1 => exact List.forall_mem_nil _
  | case2 => exact List.forall_mem_singleton.mpr scalar
  | case3 line used k more _ ih =>
    obtain ⟨first, others⟩ := List.forall_mem_cons.mp each
    exact List.forall_mem_cons.mpr ⟨scalar, ih first others⟩
  | case4 line used k more _ ih =>
    obtain ⟨first, others⟩ := List.forall_mem_cons.mp each
    exact ih (scalar.append first) others

end

/-! ## Lines -/

/-- All that a text is broken into can be encoded. -/
def Breaking.IsScalar (b : Breaking) : Prop := b.line.IsScalar ∧ ∀ line ∈ b.done, line.IsScalar

section

variable {b : Breaking}

theorem Breaking.IsScalar.finish (scalar : b.IsScalar) : ∀ line ∈ b.finish, line.IsScalar := by
  unfold Breaking.finish
  split
  · exact List.forall_mem_nil _
  · exact List.forall_mem_cons.mpr scalar

theorem isScalar_stack {done : List Text} (finished : ∀ line ∈ done, line.IsScalar)
    (each : ∀ t ∈ ts, t.IsScalar) : (Breaking.stack done ts).IsScalar := by
  fun_induction Breaking.stack done ts with
  | case1 => exact ⟨isScalar_nil, finished⟩
  | case2 _ piece => exact ⟨List.forall_mem_singleton.mp each, finished⟩
  | case3 done piece more _ ih =>
    obtain ⟨first, others⟩ := List.forall_mem_cons.mp each
    exact ih (List.forall_mem_cons.mpr ⟨first, finished⟩) others

theorem Breaking.IsScalar.add (scalar : b.IsScalar) (width : Nat) (overflow : Overflow)
    (word : t.IsScalar) : (b.add width overflow t).IsScalar := by
  unfold Breaking.add
  dsimp only
  split
  · exact ⟨scalar.1.append word, scalar.2⟩
  · split
    · cases overflow with
      | fold =>
        exact isScalar_stack scalar.finish
          (isScalar_chopClusters width 0 isScalar_nil (isScalar_clusters word))
      | ellipsis => exact ⟨word, scalar.finish⟩
    · exact ⟨word, scalar.finish⟩

theorem isScalar_foldl_add (scalar : b.IsScalar) (width : Nat) (overflow : Overflow)
    (each : ∀ t ∈ ts, t.IsScalar) : (ts.foldl (Breaking.add width overflow) b).IsScalar := by
  induction ts generalizing b with
  | nil => exact scalar
  | cons t ts ih =>
    obtain ⟨first, others⟩ := List.forall_mem_cons.mp each
    exact ih (scalar.add width overflow first) others

end

theorem isScalar_breakLines (width : Nat) (overflow : Overflow) (scalar : t.IsScalar) :
    ∀ line ∈ breakLines width overflow t, line.IsScalar := by
  have start : Breaking.IsScalar ⟨[], [], 0⟩ := ⟨isScalar_nil, List.forall_mem_nil _⟩
  have broken := isScalar_foldl_add start width overflow (isScalar_words scalar)
  intro line mem
  exact List.forall_mem_cons.mpr broken line (List.mem_reverse.mp mem)

theorem isScalar_shorten (width : Nat) (overflow : Overflow) (scalar : t.IsScalar) :
    (shorten width overflow t).IsScalar := by
  have dots : IsScalar [CodePoint.ofNat 0x2026] := by decide
  unfold shorten
  split
  · exact scalar
  · cases overflow with
    | ellipsis => exact (isScalar_fitCells _ scalar).append dots
    | fold => exact isScalar_fitCells width scalar

theorem isScalar_align (width : Nat) (style : Style) (scalar : t.IsScalar) :
    (align width style t).IsScalar := by
  have core := isScalar_shorten width style.overflow (scalar.of_subset (trimRight_subset t))
  unfold align
  cases style.alignment with
  | natural => exact scalar
  | right => exact (isScalar_blanks _).append core
  | center => exact ((isScalar_blanks _).append core).append (isScalar_blanks _)

theorem isScalar_layOut (width : Nat) (style : Style) (scalar : t.IsScalar) :
    ∀ line ∈ layOut width style t, line.IsScalar := by
  intro line mem
  obtain ⟨paragraph, found, here⟩ := List.mem_flatMap.mp mem
  obtain ⟨broken, part, rfl⟩ := List.mem_map.mp here
  have whole := isScalar_splitOn _ scalar paragraph found
  refine isScalar_shorten width style.overflow (isScalar_align width style ?_)
  have expanded : (if paragraph.contains (CodePoint.ofChar '\t') then paragraph.expandTabs
      else paragraph).IsScalar := by
    split
    · exact isScalar_expandPieces 0 (isScalar_splitOn _ whole)
    · exact whole
  -- Only that the line can be encoded counts from here on, not how it came from its paragraph.
  generalize (if paragraph.contains (CodePoint.ofChar '\t') then paragraph.expandTabs
      else paragraph) = line at part expanded
  split at part
  · obtain ⟨uncut, whole, rfl⟩ := List.mem_map.mp part
    exact (isScalar_breakLines width style.overflow expanded uncut whole).of_subset
      (List.take_subset _ _)
  · rw [List.mem_singleton.mp part]
    exact expanded

end

end Text

/-! ## Emoji -/

namespace Emoji

theorem eq_of_untilColon {t name rest : Text} (found : untilColon t = some (name, rest)) :
    t = name ++ colon :: rest := by
  induction t generalizing name with
  | nil => cases found
  | cons c t ih =>
    rw [untilColon] at found
    split at found
    next same =>
      cases found
      rw [same]
      rfl
    next =>
      split at found
      · cases found
      · obtain ⟨⟨name, rest⟩, later, ⟨⟩⟩ := Option.map_eq_some_iff.mp found
        rw [ih later]
        rfl

theorem isScalar_of_find? {name emoji : Text} (found : find? name = some emoji) :
    emoji.IsScalar := by
  have known : ∀ entry ∈ named, (CodePoint.ofNat entry.2).IsScalar := by decide
  have selector : (splitForm name).2.IsScalar := by
    have coloured : Text.IsScalar [CodePoint.ofNat 0xFE0F] := by decide
    have plain : Text.IsScalar [CodePoint.ofNat 0xFE0E] := by decide
    unfold splitForm
    split
    · exact coloured
    · exact plain
    · exact Text.isScalar_nil
  obtain ⟨entry, listed, rfl⟩ := Option.map_eq_some_iff.mp found
  exact List.forall_mem_cons.mpr ⟨known entry (List.mem_of_find?_eq_some listed), selector⟩

theorem isScalar_replace {t : Text} (scalar : t.IsScalar) : (replace t).IsScalar := by
  fun_induction replace t with
  | case1 => exact Text.isScalar_nil
  | case2 t name rest found ih =>
    -- A name between colons gives an emoji, or stays as it is with its colons.
    have parts := (List.forall_mem_cons.mp scalar).2
    rw [eq_of_untilColon found] at parts
    obtain ⟨inside, behind⟩ := List.forall_mem_append.mp parts
    obtain ⟨here, later⟩ := List.forall_mem_cons.mp behind
    refine Text.IsScalar.append ?_ (ih later)
    cases emoji : find? name with
    | none =>
      have named : Text.IsScalar (colon :: name) := List.forall_mem_cons.mpr ⟨here, inside⟩
      exact named.append (Text.isScalar_singleton here)
    | some e => exact isScalar_of_find? emoji
  | case3 t _ ih =>
    obtain ⟨here, later⟩ := List.forall_mem_cons.mp scalar
    exact List.forall_mem_cons.mpr ⟨here, ih later⟩
  | case4 c t _ ih =>
    obtain ⟨here, later⟩ := List.forall_mem_cons.mp scalar
    exact List.forall_mem_cons.mpr ⟨here, ih later⟩

end Emoji

/-! ## Markup -/

namespace Markup

/-- The text of a segment can be encoded. -/
def Segment.IsScalar : Segment → Prop
  | .plain t => t.IsScalar
  | .bracketed _ body => body.IsScalar

section

variable {t u body : Text} {parts : List Segment}

theorem isScalar_consPlain {c : CodePoint} (here : c.IsScalar) (each : ∀ s ∈ parts, s.IsScalar) :
    ∀ s ∈ consPlain c parts, s.IsScalar := by
  unfold consPlain
  split
  next =>
    obtain ⟨first, others⟩ := List.forall_mem_cons.mp each
    exact List.forall_mem_cons.mpr ⟨List.forall_mem_cons.mpr ⟨here, first⟩, others⟩
  next => exact List.forall_mem_cons.mpr ⟨Text.isScalar_singleton here, each⟩

theorem isScalar_segments (scalar : t.IsScalar) : ∀ s ∈ segments t, s.IsScalar := by
  fun_induction segments t with
  | case1 => exact List.forall_mem_nil _
  | case2 c t body rest tag ih =>
    -- The tag and what follows it are all that is left behind the backslashes.
    have behind := scalar.of_subset (List.dropWhile_sublist fun d => d = backslash).subset
    rw [(tag?_eq_some_iff.mp tag).2, bracket_append] at behind
    obtain ⟨inside, after⟩ := List.forall_mem_append.mp (List.forall_mem_cons.mp behind).2
    exact List.forall_mem_cons.mpr ⟨inside, ih (List.forall_mem_cons.mp after).2⟩
  | case3 c t _ ih =>
    obtain ⟨here, later⟩ := List.forall_mem_cons.mp scalar
    exact isScalar_consPlain here (ih later)

theorem dropEscapes_subset (t : Text) : dropEscapes t ⊆ t := by
  fun_induction dropEscapes t with
  | case1 => exact List.nil_subset _
  | case2 => exact List.Subset.refl _
  | case3 _ d t _ ih =>
    exact List.Subset.trans (List.cons_subset_cons d ih) (List.subset_cons_self _ _)
  | case4 c _ _ _ ih => exact List.cons_subset_cons c ih

theorem isScalar_shown (scalar : t.IsScalar) : (shown t).IsScalar :=
  (Emoji.isScalar_replace (scalar.of_subset (dropEscapes_subset t))).of_subset
    List.filter_sublist.subset

theorem isScalar_bracket (scalar : body.IsScalar) : (bracket body).IsScalar :=
  Text.IsScalar.append
    (List.forall_mem_cons.mpr ⟨CodePoint.isScalar_ofChar '[', scalar⟩)
    (Text.isScalar_singleton (CodePoint.isScalar_ofChar ']'))

theorem isScalar_renderFrom {position : Nat} {styles : List OpenStyle}
    (each : ∀ s ∈ parts, s.IsScalar) (rendered : renderFrom position styles parts = .ok u) :
    u.IsScalar := by
  induction parts generalizing position styles u with
  | nil =>
    cases rendered
    exact Text.isScalar_nil
  | cons s parts ih =>
    obtain ⟨here, later⟩ := List.forall_mem_cons.mp each
    have kept (n : Nat) : Text.IsScalar (List.replicate n backslash) :=
      Text.isScalar_replicate n (CodePoint.isScalar_ofChar '\\')
    cases s with
    | plain t =>
      obtain ⟨rest, others, same⟩ := bind_eq_ok_iff.mp rendered
      cases same
      exact (isScalar_shown here).append (ih later others)
    | bracketed n body =>
      rw [renderFrom] at rendered
      split at rendered
      · obtain ⟨rest, others, same⟩ := bind_eq_ok_iff.mp rendered
        cases same
        exact ((kept _).append (isScalar_shown (isScalar_bracket here))).append (ih later others)
      · obtain ⟨_, _, after⟩ := bind_eq_ok_iff.mp rendered
        obtain ⟨rest, others, same⟩ := bind_eq_ok_iff.mp after
        cases same
        exact (kept _).append (ih later others)

theorem isScalar_render (scalar : t.IsScalar) (rendered : render t = .ok u) : u.IsScalar :=
  isScalar_renderFrom (isScalar_segments scalar) rendered

end

end Markup

/-! ## Tables -/

namespace Table

theorem isScalar_line {left fill cross right : CodePoint} (widths : List Nat)
    (signs : Text.IsScalar [left, fill, cross, right]) :
    (line left fill cross right widths).IsScalar := by
  obtain ⟨leftmost, signs⟩ := List.forall_mem_cons.mp signs
  obtain ⟨filled, signs⟩ := List.forall_mem_cons.mp signs
  obtain ⟨crossed, rightmost⟩ := List.forall_mem_cons.mp signs
  have inner : (Text.join [cross] (widths.map fun w => List.replicate w fill)).IsScalar := by
    refine Text.isScalar_join (Text.isScalar_singleton crossed) fun t mem => ?_
    obtain ⟨w, _, rfl⟩ := List.mem_map.mp mem
    exact Text.isScalar_replicate w filled
  exact Text.IsScalar.append (List.forall_mem_cons.mpr ⟨leftmost, inner⟩) rightmost

theorem isScalar_cellLines (width : Nat) (c : Column) {t : Text} (scalar : t.IsScalar) :
    ∀ line ∈ cellLines width c t, line.IsScalar := by
  intro line mem
  obtain ⟨drawn, found, rfl⟩ := List.mem_map.mp mem
  have whole := Text.isScalar_layOut _ _ scalar drawn found
  exact ((Text.isScalar_blanks 1).append (Text.isScalar_fitCells _ whole)).append
    (Text.isScalar_blanks 1)

theorem isScalar_rowLines {edge : Text} (border : edge.IsScalar) (widths : List Nat)
    (columns : List Column) {cells : List Text} (each : ∀ t ∈ cells, t.IsScalar) :
    ∀ line ∈ rowLines edge widths columns cells, line.IsScalar := by
  intro line mem
  obtain ⟨i, _, rfl⟩ := List.mem_map.mp mem
  refine (border.append (Text.isScalar_join border fun part found => ?_)).append border
  obtain ⟨drawn, listed, rfl⟩ := List.mem_map.mp found
  obtain ⟨⟨width, c, t⟩, cell, rfl⟩ := List.mem_map.mp listed
  have scalar : t.IsScalar := each t (List.of_mem_zip (List.of_mem_zip cell).2).2
  cases here : (cellLines width c t)[i]? with
  | none => exact Text.isScalar_blanks width
  | some line =>
    exact isScalar_cellLines width c scalar line (List.mem_of_getElem? here)

/-- A table of texts that can be encoded. -/
structure IsScalar (table : Table) : Prop where
  title : table.title.IsScalar
  headers : ∀ c ∈ table.columns, c.header.IsScalar
  cells : ∀ row ∈ table.rows, ∀ t ∈ row, t.IsScalar

theorem IsScalar.draw {table : Table} (scalar : table.IsScalar) {width : Nat}
    {lines : List Text} (drawn : table.draw width = .ok lines) :
    ∀ line ∈ lines, line.IsScalar := by
  obtain ⟨title, titled, drawn⟩ := bind_eq_ok_iff.mp drawn
  obtain ⟨heads, headed, drawn⟩ := bind_eq_ok_iff.mp drawn
  obtain ⟨rows, filled, drawn⟩ := bind_eq_ok_iff.mp drawn
  cases drawn
  have caption := Markup.isScalar_render scalar.title titled
  have headers : ∀ t ∈ heads, t.IsScalar := forall_mem_of_mapM headed fun c mem _ =>
    Markup.isScalar_render (scalar.headers c mem)
  have cells : ∀ row ∈ rows, ∀ t ∈ row, t.IsScalar := forall_mem_of_mapM filled
    fun row mem _ shown => forall_mem_of_mapM shown fun t found _ =>
      Markup.isScalar_render (scalar.cells row mem t found)
  have lined (left fill cross right : CodePoint) (widths : List Nat)
      (signs : Text.IsScalar [left, fill, cross, right]) :
      ∀ t ∈ [line left fill cross right widths], t.IsScalar :=
    List.forall_mem_singleton.mpr (isScalar_line widths signs)
  simp only [List.forall_mem_append]
  refine ⟨⟨⟨⟨⟨Text.isScalar_layOut _ _ caption, ?_⟩, ?_⟩, ?_⟩, ?_⟩, ?_⟩
  · exact lined _ _ _ _ _ (by decide)
  · exact isScalar_rowLines (by decide) _ _ headers
  · exact lined _ _ _ _ _ (by decide)
  · intro t mem
    obtain ⟨row, listed, found⟩ := List.mem_flatMap.mp mem
    exact isScalar_rowLines (by decide) _ _ (cells row listed) t found
  · exact lined _ _ _ _ _ (by decide)

/-- A table of plain words and numbers. -/
structure IsUnmarked (table : Table) : Prop where
  title : table.title.IsUnmarked
  headers : ∀ c ∈ table.columns, c.header.IsUnmarked
  cells : ∀ row ∈ table.rows, ∀ t ∈ row, t.IsUnmarked

theorem IsUnmarked.draws {table : Table} (unmarked : table.IsUnmarked) (width : Nat) :
    ∃ lines, table.draw width = .ok lines ∧ ∀ line ∈ lines, line.IsScalar := by
  obtain ⟨lines, drawn⟩ := (draw_iff width).mpr ⟨Markup.renderable_of_isUnmarked unmarked.title,
    fun c mem => Markup.renderable_of_isUnmarked (unmarked.headers c mem),
    fun row mem t found => Markup.renderable_of_isUnmarked (unmarked.cells row mem t found)⟩
  have scalar : table.IsScalar := ⟨unmarked.title.isScalar,
    fun c mem => (unmarked.headers c mem).isScalar,
    fun row mem t found => (unmarked.cells row mem t found).isScalar⟩
  exact ⟨lines, drawn, scalar.draw drawn⟩

end Table

end RedGreen
