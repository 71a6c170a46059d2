import Calculator.Proofs.Infix.Partners

/-! Brackets in pairs, found from left to right. The brackets that have opened wait on a stack, and
each bracket that closes makes a pair with the last of them. The pairs are the partners that the
layout gives, although it is read from right to left.
-/

namespace Calculator.Infix

/-- The positions of the brackets that are open, the last one first, and a table with the partner of
each bracket that has been found so far.
-/
structure Pairing where
  opened : List Nat
  partners : List (Option Nat)

/-- Reads a token at its position. A bracket that closes where none is open has no partner. -/
def Pairing.read (p : Pairing) : Token × Nat → Pairing
  | (.openBracket, k) => { p with opened := k :: p.opened }
  | (.closeBracket, k) =>
      match p.opened with
      | [] => p
      | opening :: opened =>
          { opened, partners := (p.partners.set opening (some k)).set k (some opening) }
  | _ => p

/-- The table of pairs of a token list, which has no entries at first. -/
def pairs (tokens : List Token) : List (Option Nat) :=
  (tokens.zipIdx.foldl Pairing.read ⟨[], .replicate tokens.length none⟩).partners

--------------------------------------------------------------------------------
-- Partners in front of one more token
--------------------------------------------------------------------------------

section

variable {front : List Token} {t : Token} {i j : Nat}

/-- Partners are two positions of a list. -/
theorem partner?_bounds {tokens : List Token} (found : partner? tokens i = some j)
    : i < tokens.length ∧ j < tokens.length ∧ i ≠ j := by
  rcases partner?_eq_some_iff.mp found with ⟨front, inner, back, rfl, _, rfl, rfl⟩
    | ⟨front, inner, back, rfl, _, rfl, rfl⟩
  all_goals
    simp only [List.length_append, List.length_cons]
    omega

/-- One more token makes no pairs, unless it is one of the two itself. -/
theorem partners_concat_iff
    : Partners (front ++ [t]) i j ∧ j ≠ front.length ↔ Partners front i j := by
  constructor
  · rintro ⟨⟨before, inner, back, same, balanced, rfl, rfl⟩, other⟩
    rcases List.eq_nil_or_concat back with rfl | ⟨back, u, rfl⟩
    · have length := congrArg List.length same
      simp only [List.length_append, List.length_cons, List.length_nil] at length
      omega
    · refine ⟨before, inner, back, ?_, balanced, rfl, rfl⟩
      have whole
          : front ++ [t] = before ++ .openBracket :: (inner ++ .closeBracket :: back) ++ [u] := by
        simp [same]
      exact (List.append_inj_left' whole rfl)
  · rintro ⟨before, inner, back, rfl, balanced, rfl, rfl⟩
    refine ⟨⟨before, inner, back ++ [t], by simp, balanced, rfl, rfl⟩, ?_⟩
    simp only [List.length_append, List.length_cons]
    omega

/-- A position whose partner is not the last one has the same partner without the last token. -/
theorem partner?_concat_of_ne (inside : i ≠ front.length)
    (kept : partner? (front ++ [t]) i ≠ some front.length)
    : partner? (front ++ [t]) i = partner? front i := by
  refine Option.ext fun j => ?_
  constructor
  · intro found
    have other : j ≠ front.length := by
      rintro rfl
      exact kept found
    rw [partner?_eq_some_iff] at found ⊢
    exact found.imp (fun pair => partners_concat_iff.mp ⟨pair, other⟩)
      fun pair => partners_concat_iff.mp ⟨pair, inside⟩
  · intro found
    rw [partner?_eq_some_iff] at found ⊢
    exact found.imp (fun pair => (partners_concat_iff.mpr pair).1)
      fun pair => (partners_concat_iff.mpr pair).1

/-- A last token without a partner leaves all partners as they are. -/
theorem partner?_concat_of_none (alone : partner? (front ++ [t]) front.length = none)
    : partner? (front ++ [t]) i = partner? front i := by
  by_cases last : i = front.length
  · rw [last, alone, partner?_eq_none (Nat.le_refl _)]
  · refine partner?_concat_of_ne last fun found => ?_
    rw [partner?_symm found] at alone
    cases alone

/-- The partner of the last token is found from it to the left. -/
theorem partner?_last
    : partner? (front ++ [t]) front.length = scannedPartner? front.reverse t [] :=
  partner?_append front t []

end

--------------------------------------------------------------------------------
-- Runs
--------------------------------------------------------------------------------

/-- Behind some tokens, the open brackets are those to which a way to the left leads out of the
others, and the pairs are the partners among these tokens. The table has entries for all tokens.
-/
structure Pairing.Reflects (size : Nat) (front : List Token) (p : Pairing) : Prop where
  length : p.partners.length = size
  opened
    : ∀ level : Nat,
        p.opened[level]?
          = (partnerLength? .closeBracket .openBracket level front.reverse).map (front.length - ·)
  partners : ∀ i, p.partners[i]?.join = partner? front i

namespace Pairing.Reflects

variable {size : Nat} {front : List Token} {p : Pairing}

theorem head?_opened (reflects : p.Reflects size front)
    : p.opened.head? = partner? (front ++ [.closeBracket]) front.length := by
  rw [partner?_last, List.head?_eq_getElem?, reflects.opened 0, scannedPartner?, groupBefore?,
    List.length_reverse]

/-- A bracket that opens is the last one that is open. -/
theorem openBracket (reflects : p.Reflects size front)
    : (p.read (.openBracket, front.length)).Reflects size (front ++ [.openBracket]) where
  length := reflects.length
  opened level := by
    cases level with
    | zero => simp [read, partnerLength?]
    | succ level =>
        have opened := reflects.opened level
        simp [read, partnerLength?, opened, Function.comp_def]
  partners i := by
    rw [partner?_concat_of_none (by rw [partner?_last]; rfl)]
    exact reflects.partners i

/-- A bracket that closes takes the last one that is open for its partner. -/
theorem closeBracket (reflects : p.Reflects size front) (lt : front.length < size)
    : (p.read (.closeBracket, front.length)).Reflects size (front ++ [.closeBracket]) := by
  have head := reflects.head?_opened
  have tail (level : Nat)
      : p.opened.tail[level]?
        = (partnerLength? .closeBracket .openBracket level
            (front ++ [Token.closeBracket]).reverse).map
          ((front ++ [Token.closeBracket]).length - ·) := by
    have opened := reflects.opened (level + 1)
    simp [partnerLength?, opened, Function.comp_def]
  rw [read]
  cases opened : p.opened with
  | nil =>
      rw [opened] at head tail
      refine ⟨reflects.length, fun level => ?_, fun i => ?_⟩
      · rw [opened]
        exact tail level
      · rw [partner?_concat_of_none head.symm]
        exact reflects.partners i
  | cons opening rest =>
      rw [opened] at head tail
      have found : partner? (front ++ [.closeBracket]) front.length = some opening := head.symm
      obtain ⟨_, bound, distinct⟩ := partner?_bounds found
      rw [List.length_append, List.length_singleton] at bound
      have opening_lt : opening < size := by omega
      refine ⟨by simp [reflects.length], tail, fun i => ?_⟩
      dsimp only
      by_cases last : i = front.length
      · rw [last, found, List.getElem?_set_self (by simpa [reflects.length] using lt)]
        rfl
      · rw [List.getElem?_set_ne (Ne.symm last)]
        by_cases first : i = opening
        · rw [first, partner?_symm found,
            List.getElem?_set_self (by simpa [reflects.length] using opening_lt)]
          rfl
        · have kept : partner? (front ++ [.closeBracket]) i ≠ some front.length := fun pair =>
            first (Option.some.inj ((partner?_symm pair).symm.trans found))
          rw [List.getElem?_set_ne (Ne.symm first), partner?_concat_of_ne last kept]
          exact reflects.partners i

/-- Any other token is passed. -/
theorem other (reflects : p.Reflects size front) {t : Token} (opens : t ≠ .openBracket)
    (closes : t ≠ .closeBracket)
    : (p.read (t, front.length)).Reflects size (front ++ [t]) := by
  have same : p.read (t, front.length) = p := by
    cases t <;> first | rfl | contradiction
  rw [same]
  refine ⟨reflects.length, fun level => ?_, fun i => ?_⟩
  · have opened := reflects.opened level
    simp [partnerLength?, opened, opens, closes, Function.comp_def]
  · rw [partner?_concat_of_none, reflects.partners]
    rw [partner?_last]
    cases t <;> first | rfl | contradiction

/-- Every token that is read keeps what the stack and the table reflect. -/
theorem read (reflects : p.Reflects size front) (lt : front.length < size) (t : Token)
    : (p.read (t, front.length)).Reflects size (front ++ [t]) := by
  by_cases opens : t = .openBracket
  · subst opens
    exact reflects.openBracket
  · by_cases closes : t = .closeBracket
    · subst closes
      exact reflects.closeBracket lt
    · exact reflects.other opens closes

end Pairing.Reflects

/-- Behind all tokens that were read, the stack and the table reflect these tokens. Witness:
induction on them, from the last one.
-/
theorem reflects_of_run {front : List Token} {size : Nat} (le : front.length ≤ size)
    : (front.zipIdx.foldl Pairing.read ⟨[], .replicate size none⟩).Reflects size front := by
  induction front using List.reverseRecOn with
  | nil =>
      refine ⟨List.length_replicate .., fun level => rfl, fun i => ?_⟩
      change (List.replicate size none)[i]?.join = _
      rw [partner?_eq_none (Nat.zero_le i), List.getElem?_replicate]
      split <;> rfl
  | append_singleton front t ih =>
      rw [List.length_append, List.length_singleton] at le
      rw [List.zipIdx_append, List.foldl_append, Nat.zero_add]
      exact (ih (Nat.le_of_succ_le le)).read le t

/-- The pairs that are found from left to right are the partners of the layout. -/
theorem pairs_eq (tokens : List Token)
    : pairs tokens = (List.range tokens.length).map (partner? tokens) := by
  have reflects := reflects_of_run (Nat.le_refl tokens.length)
  refine List.ext_getElem? fun i => ?_
  have entry : (pairs tokens)[i]?.join = partner? tokens i := reflects.partners i
  have length : (pairs tokens).length = tokens.length := reflects.length
  by_cases lt : i < tokens.length
  · rw [List.getElem?_eq_getElem (length ▸ lt), Option.join_some] at entry
    rw [List.getElem?_eq_getElem (length ▸ lt), entry]
    simp [lt]
  · rw [List.getElem?_eq_none (by omega), List.getElem?_eq_none (by simpa using lt)]

/-- The second bracket that closes has no partner, since none is open there. -/
example
    : pairs [.openBracket, .constant .pi, .closeBracket, .closeBracket, .openBracket]
      = [some 2, none, some 0, none, none] :=
  rfl

end Calculator.Infix
