import Mathlib
import Calculator.Lexeme

/-! How a text spells lexemes: blanks stand anywhere between them, and they are needed only
where two neighbouring lexemes would otherwise be one. Scanning finds the lexemes that the
text spells.
-/

namespace Calculator.Lexeme

/-- A lexeme is a run of characters of its kind, or a single character of no such kind. -/
def WellFormed : Lexeme → Prop
  | numeral run => run ≠ [] ∧ ∀ c ∈ run, Numeral.isNumeralChar c = true
  | word run => run ≠ [] ∧ ∀ c ∈ run, c.isAlpha = true
  | mark c => c.isWhitespace = false ∧ Numeral.isNumeralChar c = false ∧ c.isAlpha = false

instance (l : Lexeme) : Decidable l.WellFormed :=
  match l with
  | numeral _ => inferInstanceAs (Decidable (_ ∧ _))
  | word _ => inferInstanceAs (Decidable (_ ∧ _))
  | mark _ => inferInstanceAs (Decidable (_ ∧ _ ∧ _))

/-- A text spells the lexemes, from left to right. A lexeme is not continued by what stands
behind it.
-/
inductive Spells : List Char → List Lexeme → Prop where
  | nil : Spells [] []
  | blank {c : Char} {text : List Char} {lexemes : List Lexeme}
    (blank : c.isWhitespace = true) (rest : Spells text lexemes)
    : Spells (c :: text) lexemes
  | lexeme {l : Lexeme} {text : List Char} {lexemes : List Lexeme} (formed : l.WellFormed)
    (ends : ∀ last ∈ l.chars.getLast?, ∀ next ∈ text.head?, joins last next = false)
    (rest : Spells text lexemes)
    : Spells (l.chars ++ text) (l :: lexemes)

theorem isWhitespace_of_isNumeralChar {c : Char} (numeral : Numeral.isNumeralChar c = true)
    : c.isWhitespace = false := by
  by_contra blank
  simp only [Char.isWhitespace, Bool.not_eq_false, Bool.or_eq_true, decide_eq_true_eq] at blank
  rcases blank with ((rfl | rfl) | rfl) | rfl <;> revert numeral <;> decide

theorem isWhitespace_of_isAlpha {c : Char} (alpha : c.isAlpha = true)
    : c.isWhitespace = false := by
  by_contra blank
  simp only [Char.isWhitespace, Bool.not_eq_false, Bool.or_eq_true, decide_eq_true_eq] at blank
  rcases blank with ((rfl | rfl) | rfl) | rfl <;> revert alpha <;> decide

/-- Letters are not part of numerals. -/
theorem isNumeralChar_of_isAlpha {c : Char} (alpha : c.isAlpha = true)
    : Numeral.isNumeralChar c = false := by
  have point : c ≠ '.' := by
    intro same
    subst same
    revert alpha
    decide
  have digit : c.isDigit = false := by
    simp only [Char.isAlpha, Char.isUpper, Char.isLower, Char.isDigit, Bool.or_eq_true,
      Bool.and_eq_true, decide_eq_true_eq, Bool.and_eq_false_imp, decide_eq_false_iff_not] at *
    grind
  simp [Numeral.isNumeralChar, point, digit]

theorem joins_comm (a b : Char)
    : joins a b = joins b a := by
  rw [joins, joins, Bool.and_comm, Bool.and_comm a.isAlpha]

/-- White space joins nothing. -/
theorem joins_eq_false_of_isWhitespace {c : Char} (blank : c.isWhitespace = true) (next : Char)
    : joins c next = false := by
  have numeral : Numeral.isNumeralChar c = false := by
    by_contra numeral
    simp [isWhitespace_of_isNumeralChar (by simpa using numeral)] at blank
  have alpha : c.isAlpha = false := by
    by_contra alpha
    simp [isWhitespace_of_isAlpha (by simpa using alpha)] at blank
  simp [joins, numeral, alpha]

/-- The run of a well-formed lexeme makes up that lexeme. -/
theorem ofRun?_chars {l : Lexeme} (formed : l.WellFormed)
    : ofRun? l.chars = some l := by
  cases l with
  | numeral run =>
      obtain ⟨nonempty, numerals⟩ := formed
      cases run with
      | nil => exact absurd rfl nonempty
      | cons c rest =>
          have numeral := numerals c (by simp)
          simp [chars, ofRun?, numeral, isWhitespace_of_isNumeralChar numeral]
  | word run =>
      obtain ⟨nonempty, letters⟩ := formed
      cases run with
      | nil => exact absurd rfl nonempty
      | cons c rest =>
          have alpha := letters c (by simp)
          simp [chars, ofRun?, alpha, isWhitespace_of_isAlpha alpha, isNumeralChar_of_isAlpha alpha]
  | mark c =>
      obtain ⟨blank, numeral, alpha⟩ := formed
      simp [chars, ofRun?, blank, numeral, alpha]

/-- The characters of a well-formed lexeme belong to one run. -/
theorem isChain_chars {l : Lexeme} (formed : l.WellFormed)
    : l.chars.IsChain (fun a b => joins a b = true) := by
  cases l with
  | numeral run =>
      refine List.Pairwise.isChain (List.pairwise_of_forall_mem_list ?_)
      intro a memberA b memberB
      simp [joins, formed.2 a memberA, formed.2 b memberB]
  | word run =>
      refine List.Pairwise.isChain (List.pairwise_of_forall_mem_list ?_)
      intro a memberA b memberB
      simp [joins, formed.2 a memberA, formed.2 b memberB]
  | mark c => exact .singleton c

theorem chars_ne_nil {l : Lexeme} (formed : l.WellFormed)
    : l.chars ≠ [] := by
  cases l with
  | numeral run | word run => exact formed.1
  | mark c => simp [chars]

/-- Scanning a text finds the lexemes that it spells. Witness: induction on the spelling; the
run of a lexeme ends where it is not continued, and a blank is a run that makes up none.
-/
theorem scan_of_spells {text : List Char} {lexemes : List Lexeme} (h : Spells text lexemes)
    : scan text = lexemes := by
  induction h with
  | nil => rfl
  | @blank c text lexemes blank rest ih =>
      have apart : ∀ last ∈ [c].getLast?, ∀ next ∈ text.head?, joins last next = false := by
        intro last same next _
        obtain rfl : c = last := by simpa using same
        exact joins_eq_false_of_isWhitespace blank next
      change (([c] ++ text).splitBy joins).filterMap ofRun? = lexemes
      rw [List.splitBy_append apart, List.splitBy_of_isChain (by simp) (.singleton c)]
      simpa [scan, ofRun?, blank] using ih
  | @lexeme l text lexemes formed ends rest ih =>
      rw [scan, List.splitBy_append ends,
        List.splitBy_of_isChain (chars_ne_nil formed) (isChain_chars formed)]
      simpa [scan, ofRun?_chars formed] using ih

/-- A property that a character hands on to the next one of its run holds in the whole run. -/
theorem forall_mem_of_isChain {P : Char → Bool} {c : Char} {rest : List Char}
    (run : (c :: rest).IsChain (fun a b => joins a b = true)) (first : P c = true)
    (next : ∀ a b, P a = true → joins a b = true → P b = true)
    : ∀ a ∈ c :: rest, P a = true := by
  induction rest generalizing c with
  | nil => simpa using first
  | cons d rest ih =>
      rw [List.isChain_cons_cons] at run
      have others := ih run.2 (next c d first run.1)
      intro a member
      rcases List.mem_cons.mp member with same | member
      · exact same ▸ first
      · exact others a member

/-- A run of joined characters is a blank or the characters of a lexeme. -/
theorem ofRun?_of_isChain {c : Char} {rest : List Char}
    (run : (c :: rest).IsChain (fun a b => joins a b = true))
    : (c.isWhitespace = true ∧ rest = [] ∧ ofRun? (c :: rest) = none)
      ∨ ∃ l : Lexeme, l.WellFormed ∧ l.chars = c :: rest ∧ ofRun? (c :: rest) = some l := by
  have alone (unjoined : ∀ next, joins c next = false) : rest = [] := by
    cases rest with
    | nil => rfl
    | cons d rest =>
        rw [List.isChain_cons_cons, unjoined d] at run
        exact absurd run.1 Bool.false_ne_true
  by_cases blank : c.isWhitespace = true
  · exact .inl ⟨blank, alone (joins_eq_false_of_isWhitespace blank), by simp [ofRun?, blank]⟩
  right
  by_cases numeral : Numeral.isNumeralChar c = true
  · refine ⟨.numeral (c :: rest), ⟨by simp, ?_⟩, rfl, by simp [ofRun?, blank, numeral]⟩
    refine forall_mem_of_isChain run numeral fun a b numeral joined => ?_
    have alpha : a.isAlpha = false := by
      by_contra alpha
      simp [isNumeralChar_of_isAlpha (by simpa using alpha)] at numeral
    simpa [joins, numeral, alpha] using joined
  by_cases alpha : c.isAlpha = true
  · refine ⟨.word (c :: rest), ⟨by simp, ?_⟩, rfl, by simp [ofRun?, blank, numeral, alpha]⟩
    refine forall_mem_of_isChain run alpha fun a b alpha joined => ?_
    simpa [joins, isNumeralChar_of_isAlpha alpha, alpha] using joined
  · simp only [Bool.not_eq_true] at blank numeral alpha
    refine ⟨.mark c, ⟨blank, numeral, alpha⟩, ?_, by simp [ofRun?, blank, numeral, alpha]⟩
    rw [alone fun next => by simp [joins, numeral, alpha]]
    rfl

/-- Runs that do not join one another spell their lexemes. -/
theorem spells_flatten {runs : List (List Char)} (nonempty : [] ∉ runs)
    (joined : ∀ run ∈ runs, run.IsChain (fun a b => joins a b = true))
    (apart : runs.IsChain fun a b => ∃ ha hb, joins (a.getLast ha) (b.head hb) = false)
    : Spells runs.flatten (runs.filterMap ofRun?) := by
  induction runs with
  | nil => exact .nil
  | cons run runs ih =>
      have rest := ih (fun member => nonempty (List.mem_cons_of_mem _ member))
        (fun run member => joined run (List.mem_cons_of_mem _ member)) apart.tail
      cases run with
      | nil => exact absurd List.mem_cons_self nonempty
      | cons c chars =>
          rcases ofRun?_of_isChain (joined (c :: chars) List.mem_cons_self) with
            ⟨blank, alone, none⟩ | ⟨l, formed, same, some⟩
          · subst alone
            simpa [none] using Spells.blank blank rest
          · rw [List.flatten_cons, List.filterMap_cons_some some, ← same]
            refine .lexeme formed ?_ rest
            intro last isLast next isNext
            cases runs with
            | nil => cases isNext
            | cons following runs =>
                rw [List.isChain_cons_cons] at apart
                obtain ⟨⟨_, nonempty, unjoined⟩, _⟩ := apart
                rw [same, List.getLast?_eq_getLast_of_ne_nil (by simp)] at isLast
                rw [List.flatten_cons, List.head?_append_of_ne_nil _ nonempty,
                  List.head?_eq_some_head nonempty] at isNext
                obtain rfl := Option.mem_some_iff.mp isLast
                obtain rfl := Option.mem_some_iff.mp isNext
                exact unjoined

/-- What a text spells is what scanning it finds. -/
theorem spells_iff_scan {text : List Char} {lexemes : List Lexeme}
    : Spells text lexemes ↔ scan text = lexemes := by
  constructor
  · exact scan_of_spells
  · intro found
    have spelled := spells_flatten (List.nil_notMem_splitBy joins text)
      (fun run member => List.isChain_of_mem_splitBy member)
      (List.isChain_getLast_head_splitBy joins text)
    rwa [List.flatten_splitBy, ← scan, found] at spelled

end Calculator.Lexeme
