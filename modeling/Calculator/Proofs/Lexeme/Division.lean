import Calculator.Proofs.Lexeme.Spelling

/-! How a text can be divided into pieces with blanks between them, where neighbours are not parts
of one run. There is exactly one such division, whose pieces are the lexemes of the text.
-/

namespace Calculator.Lexeme

/-- The characters of a text that are no blanks. -/
def withoutBlanks (text : List Char) : List Char :=
  text.filter fun c => !c.isWhitespace

/-- A run of digits and points, a run of letters, or a single character. -/
def IsPiece (piece : List Char) : Prop :=
  piece ≠ []
    ∧ ((∀ c ∈ piece, Numeral.isNumeralChar c = true) ∨ (∀ c ∈ piece, c.isAlpha = true)
      ∨ piece.length = 1)

/-- Both are runs of digits and points, or both are runs of letters. -/
def AreOneRun (left right : List Char) : Prop :=
  (∀ c ∈ left ++ right, Numeral.isNumeralChar c = true) ∨ ∀ c ∈ left ++ right, c.isAlpha = true

/-- A piece and what stands between it and the next one. -/
structure Segment where
  piece : List Char
  gap : List Char

/-- The characters of a segment. -/
def Segment.chars (s : Segment) : List Char :=
  s.piece ++ s.gap

/-- The text is cut into pieces with blanks before, between and behind them, and two pieces with
nothing between them are not parts of one run.
-/
structure IsDivision (text lead : List Char) (segments : List Segment) : Prop where
  whole : lead ++ segments.flatMap Segment.chars = text
  blank_lead : ∀ c ∈ lead, c.isWhitespace = true
  blank_gap : ∀ s ∈ segments, ∀ c ∈ s.gap, c.isWhitespace = true
  kept : segments.flatMap Segment.piece = withoutBlanks text
  formed : ∀ s ∈ segments, IsPiece s.piece
  maximal : segments.IsChain fun s next => s.gap = [] → ¬ AreOneRun s.piece next.piece

--------------------------------------------------------------------------------
-- Pieces and lexemes
--------------------------------------------------------------------------------

theorem withoutBlanks_append (left right : List Char)
    : withoutBlanks (left ++ right) = withoutBlanks left ++ withoutBlanks right :=
  List.filter_append _ _

theorem withoutBlanks_eq_nil_iff {text : List Char}
    : withoutBlanks text = [] ↔ ∀ c ∈ text, c.isWhitespace = true := by
  simp [withoutBlanks, List.filter_eq_nil_iff]

theorem withoutBlanks_eq_self_iff {text : List Char}
    : withoutBlanks text = text ↔ ∀ c ∈ text, c.isWhitespace = false := by
  simp [withoutBlanks, List.filter_eq_self]

/-- A well-formed lexeme has no blanks. -/
theorem isWhitespace_of_mem_chars {l : Lexeme} (formed : l.WellFormed) {c : Char}
    (mem : c ∈ l.chars)
    : c.isWhitespace = false := by
  cases l with
  | numeral run => exact isWhitespace_of_isNumeralChar (formed.2 c mem)
  | word run => exact isWhitespace_of_isAlpha (formed.2 c mem)
  | mark d =>
      obtain rfl := List.mem_singleton.mp mem
      exact formed.1

/-- The text of a lexeme is one piece. -/
theorem isPiece_chars {l : Lexeme} (formed : l.WellFormed)
    : IsPiece l.chars := by
  refine ⟨chars_ne_nil formed, ?_⟩
  cases l with
  | numeral run => exact .inl formed.2
  | word run => exact .inr (.inl formed.2)
  | mark c => exact .inr (.inr rfl)

section Piece

variable {piece : List Char} {c : Char}

/-- A character of a run makes all of them characters of its kind. -/
theorem IsPiece.forall_isNumeralChar (formed : IsPiece piece) (mem : c ∈ piece)
    (numeral : Numeral.isNumeralChar c = true)
    : ∀ d ∈ piece, Numeral.isNumeralChar d = true := by
  rcases formed.2 with numerals | letters | single
  · exact numerals
  · rw [isNumeralChar_of_isAlpha (letters c mem)] at numeral
    cases numeral
  · obtain ⟨a, rfl⟩ := List.length_eq_one_iff.mp single
    obtain rfl := List.mem_singleton.mp mem
    simpa using numeral

/-- A piece with one letter consists of letters. -/
theorem IsPiece.forall_isAlpha (formed : IsPiece piece) (mem : c ∈ piece)
    (alpha : c.isAlpha = true)
    : ∀ d ∈ piece, d.isAlpha = true := by
  rcases formed.2 with numerals | letters | single
  · have numeral := numerals c mem
    rw [isNumeralChar_of_isAlpha alpha] at numeral
    cases numeral
  · exact letters
  · obtain ⟨a, rfl⟩ := List.length_eq_one_iff.mp single
    obtain rfl := List.mem_singleton.mp mem
    simpa using alpha

/-- A piece without blanks is the text of a lexeme. -/
theorem IsPiece.exists_lexeme (formed : IsPiece piece)
    (ink : ∀ c ∈ piece, c.isWhitespace = false)
    : ∃ l : Lexeme, l.WellFormed ∧ l.chars = piece := by
  rcases formed.2 with numerals | letters | single
  · exact ⟨.numeral piece, ⟨formed.1, numerals⟩, rfl⟩
  · exact ⟨.word piece, ⟨formed.1, letters⟩, rfl⟩
  · obtain ⟨c, rfl⟩ := List.length_eq_one_iff.mp single
    by_cases numeral : Numeral.isNumeralChar c = true
    · exact ⟨.numeral [c], ⟨by simp, by simpa using numeral⟩, rfl⟩
    · by_cases alpha : c.isAlpha = true
      · exact ⟨.word [c], ⟨by simp, by simpa using alpha⟩, rfl⟩
      · exact ⟨.mark c, ⟨ink c (by simp), by simpa using numeral, by simpa using alpha⟩, rfl⟩

end Piece

/-- Pieces are parts of one run exactly if a character of one joins a character of the other. -/
theorem areOneRun_iff_joins {left right : List Char} (left_formed : IsPiece left)
    (right_formed : IsPiece right) {a b : Char} (a_mem : a ∈ left) (b_mem : b ∈ right)
    : AreOneRun left right ↔ joins a b = true := by
  simp only [AreOneRun, joins, List.forall_mem_append, Bool.or_eq_true, Bool.and_eq_true]
  constructor
  · rintro (⟨left_all, right_all⟩ | ⟨left_all, right_all⟩)
    · exact .inl ⟨left_all a a_mem, right_all b b_mem⟩
    · exact .inr ⟨left_all a a_mem, right_all b b_mem⟩
  · rintro (⟨left_one, right_one⟩ | ⟨left_one, right_one⟩)
    · exact .inl ⟨left_formed.forall_isNumeralChar a_mem left_one,
        right_formed.forall_isNumeralChar b_mem right_one⟩
    · exact .inr ⟨left_formed.forall_isAlpha a_mem left_one,
        right_formed.forall_isAlpha b_mem right_one⟩

--------------------------------------------------------------------------------
-- Divisions and spellings
--------------------------------------------------------------------------------

/-- Blanks in front of a spelling change nothing. -/
theorem Spells.blanks {lead text : List Char} {lexemes : List Lexeme}
    (blank : ∀ c ∈ lead, c.isWhitespace = true) (rest : Spells text lexemes)
    : Spells (lead ++ text) lexemes := by
  induction lead with
  | nil => exact rest
  | cons c lead ih =>
      obtain ⟨first, others⟩ := List.forall_mem_cons.mp blank
      exact .blank first (ih others)

namespace IsDivision

variable {text lead : List Char} {segments : List Segment} {s : Segment}

/-- The empty text has the empty division. -/
theorem nil
    : IsDivision [] [] [] where
  whole := rfl
  blank_lead := by simp
  blank_gap := by simp
  kept := rfl
  formed := by simp
  maximal := .nil

/-- A blank in front of a text joins the blanks in front of it. -/
theorem cons_blank (division : IsDivision text lead segments) {c : Char}
    (blank : c.isWhitespace = true)
    : IsDivision (c :: text) (c :: lead) segments where
  whole := by rw [← division.whole]; rfl
  blank_lead := List.forall_mem_cons.mpr ⟨blank, division.blank_lead⟩
  blank_gap := division.blank_gap
  kept := by
    rw [division.kept]
    simp [withoutBlanks, blank]
  formed := division.formed
  maximal := division.maximal

/-- The first character of a divided text is a blank, or it belongs to the first piece. -/
theorem head_cases (division : IsDivision text lead segments) {c : Char} (first : c ∈ text.head?)
    : c.isWhitespace = true
      ∨ lead = [] ∧ ∃ s rest, segments = s :: rest ∧ c ∈ s.piece := by
  obtain ⟨rfl, blank_lead, -, -, formed, -⟩ := division
  cases lead with
  | cons a lead =>
      obtain rfl : a = c := by simpa using first
      exact .inl (blank_lead a List.mem_cons_self)
  | nil =>
      cases segments with
      | nil => cases first
      | cons s rest =>
          have nonempty := (formed s List.mem_cons_self).1
          refine .inr ⟨rfl, s, rest, rfl, ?_⟩
          rw [List.nil_append, List.flatMap_cons, Segment.chars, List.append_assoc,
            List.head?_append_of_ne_nil _ nonempty] at first
          exact List.mem_of_mem_head? first

/-- The gap of a piece leads to the rest of the text. -/
theorem cons_piece (division : IsDivision text lead segments) {piece : List Char}
    (formed : IsPiece piece) (ink : ∀ c ∈ piece, c.isWhitespace = false)
    (ends : lead = [] → ∀ next ∈ segments.head?, ¬ AreOneRun piece next.piece)
    : IsDivision (piece ++ text) [] (⟨piece, lead⟩ :: segments) where
  whole := by simp [Segment.chars, division.whole]
  blank_lead := by simp
  blank_gap := List.forall_mem_cons.mpr ⟨division.blank_lead, division.blank_gap⟩
  kept := by
    rw [List.flatMap_cons, division.kept, withoutBlanks_append, withoutBlanks_eq_self_iff.mpr ink]
  formed := List.forall_mem_cons.mpr ⟨formed, division.formed⟩
  maximal := by
    rw [List.isChain_cons]
    exact ⟨fun next first none => ends none next first, division.maximal⟩

/-- The pieces have no blanks, as they are what is left of the text without them. -/
theorem isWhitespace_of_mem (division : IsDivision text lead segments) (mem : s ∈ segments)
    {c : Char} (part : c ∈ s.piece)
    : c.isWhitespace = false := by
  have kept : c ∈ withoutBlanks text := by
    rw [← division.kept]
    exact List.mem_flatMap_of_mem mem part
  simpa using (List.mem_filter.mp kept).2

/-- Behind the first piece there is a division of the rest. -/
theorem exists_rest (division : IsDivision text lead (s :: segments))
    : ∃ rest, text = lead ++ (s.piece ++ rest) ∧ IsDivision rest s.gap segments := by
  have ink := withoutBlanks_eq_self_iff.mpr fun c => division.isWhitespace_of_mem List.mem_cons_self
  obtain ⟨rfl, blank_lead, blank_gap, kept, formed, maximal⟩ := division
  obtain ⟨first_gap, other_gaps⟩ := List.forall_mem_cons.mp blank_gap
  refine ⟨s.gap ++ segments.flatMap Segment.chars, by simp [Segment.chars], rfl, first_gap,
    other_gaps, ?_, (List.forall_mem_cons.mp formed).2, maximal.tail⟩
  rw [List.flatMap_cons, List.flatMap_cons, withoutBlanks_append,
    withoutBlanks_eq_nil_iff.mpr blank_lead, List.nil_append, Segment.chars, List.append_assoc,
    withoutBlanks_append, ink] at kept
  exact List.append_cancel_left kept

/-- A text that spells lexemes is divided into their characters. Witness: induction on the
spelling; lexemes that would be one run are joined where they meet.
-/
theorem exists_of_spells {lexemes : List Lexeme} (spells : Spells text lexemes)
    : ∃ lead segments, IsDivision text lead segments
        ∧ segments.map Segment.piece = lexemes.map Lexeme.chars := by
  induction spells with
  | nil => exact ⟨[], [], nil, rfl⟩
  | @blank c text lexemes blank rest ih =>
      obtain ⟨lead, segments, division, same⟩ := ih
      exact ⟨c :: lead, segments, division.cons_blank blank, same⟩
  | @lexeme l text lexemes formed ends rest ih =>
      obtain ⟨lead, segments, division, same⟩ := ih
      refine ⟨[], ⟨l.chars, lead⟩ :: segments, ?_, by simp [same]⟩
      refine division.cons_piece (isPiece_chars formed)
        (fun c => isWhitespace_of_mem_chars formed) ?_
      rintro rfl next first
      obtain ⟨segments, rfl⟩ := List.head?_eq_some_iff.mp first
      obtain ⟨behind, rfl, -⟩ := division.exists_rest
      have next_formed := division.formed next List.mem_cons_self
      have last := List.getLast?_eq_some_getLast (chars_ne_nil formed)
      have head := List.head?_eq_some_head next_formed.1
      rw [areOneRun_iff_joins (isPiece_chars formed) next_formed (List.mem_of_getLast? last)
        (List.mem_of_mem_head? head), ends _ last _ ?_]
      · exact Bool.false_ne_true
      · rw [List.nil_append, List.head?_append_of_ne_nil _ next_formed.1, head]
        rfl

/-- The pieces of a divided text are lexemes that it spells. Witness: induction on the pieces;
where two of them meet, their characters are not joined.
-/
theorem exists_spells (division : IsDivision text lead segments)
    : ∃ lexemes, Spells text lexemes
        ∧ lexemes.map Lexeme.chars = segments.map Segment.piece := by
  induction segments generalizing text lead with
  | nil =>
      obtain ⟨rfl, blank_lead, -⟩ := division
      exact ⟨[], Spells.nil.blanks blank_lead, rfl⟩
  | cons s segments ih =>
      obtain ⟨rest, rfl, others⟩ := division.exists_rest
      obtain ⟨lexemes, spells, same⟩ := ih others
      have piece := division.formed s List.mem_cons_self
      obtain ⟨l, formed, chars⟩ :=
        piece.exists_lexeme fun c => division.isWhitespace_of_mem List.mem_cons_self
      refine ⟨l :: lexemes, .blanks division.blank_lead ?_, by rw [List.map_cons, chars, same]; rfl⟩
      rw [← chars]
      refine .lexeme formed ?_ spells
      intro last isLast next isNext
      rw [chars] at isLast
      rcases others.head_cases isNext with blank | ⟨none, t, rest, rfl, part⟩
      · exact (joins_comm last next).trans (joins_eq_false_of_isWhitespace blank last)
      · have apart := (List.isChain_cons_cons.mp division.maximal).1 none
        rw [areOneRun_iff_joins piece (others.formed t List.mem_cons_self)
          (List.mem_of_getLast? isLast) part] at apart
        simpa using apart

end IsDivision

/-- The lexemes of a text are the pieces of a division. -/
theorem exists_isDivision (text : List Char)
    : ∃ lead segments, IsDivision text lead segments
        ∧ segments.map Segment.piece = (scan text).map chars :=
  IsDivision.exists_of_spells (spells_iff_scan.mpr rfl)

/-- There is no other division. -/
theorem IsDivision.map_piece {text lead : List Char} {segments : List Segment}
    (division : IsDivision text lead segments)
    : segments.map Segment.piece = (scan text).map chars := by
  obtain ⟨lexemes, spells, same⟩ := division.exists_spells
  rw [← same, scan_of_spells spells]

/-- Each lexeme of a spelling is well formed. -/
theorem wellFormed_of_spells {text : List Char} {lexemes : List Lexeme}
    (spells : Spells text lexemes)
    : ∀ l ∈ lexemes, l.WellFormed := by
  induction spells with
  | nil => simp
  | blank _ _ ih => exact ih
  | lexeme formed _ _ ih => exact List.forall_mem_cons.mpr ⟨formed, ih⟩

theorem wellFormed_scan (text : List Char)
    : ∀ l ∈ scan text, l.WellFormed :=
  wellFormed_of_spells (spells_iff_scan.mpr rfl : Spells text _)

/-- Nothing but blanks is lost. -/
theorem flatMap_chars_scan (text : List Char)
    : (scan text).flatMap chars = withoutBlanks text := by
  obtain ⟨lead, segments, division, same⟩ := exists_isDivision text
  rw [← division.kept, List.flatMap_def, List.flatMap_def, same]

end Calculator.Lexeme
