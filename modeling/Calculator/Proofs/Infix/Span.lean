import Mathlib.Data.List.ReduceOption
import Calculator.Proofs.Infix.Depth

/-! Bracket pairs that are put into a token list, given by the positions that they enclose. Pairs
that enclose parts of a list are put into the parts independently of each other.
-/

namespace Calculator.Infix

/-- The tokens from position `first` up to the one before position `stop`. -/
structure Span where
  first : Nat
  stop : Nat
deriving DecidableEq

namespace Span

/-- The position belongs to the span. -/
def Holds (s : Span) (i : Nat) : Prop :=
  s.first ≤ i ∧ i < s.stop

/-- The tokens of a span. -/
def segment (s : Span) (tokens : List Token) : List Token :=
  (tokens.drop s.first).take (s.stop - s.first)

/-- Two spans have no position in common, or all those of one of them. -/
def Parallel (a b : Span) : Prop :=
  a.stop ≤ b.first ∨ b.stop ≤ a.first ∨ (a.first ≤ b.first ∧ b.stop ≤ a.stop)
    ∨ (b.first ≤ a.first ∧ a.stop ≤ b.stop)

theorem Parallel.symm {a b : Span} (parallel : a.Parallel b)
    : b.Parallel a := by
  unfold Parallel at *
  omega

end Span

--------------------------------------------------------------------------------
-- Putting brackets in
--------------------------------------------------------------------------------

/-- The brackets that open in front of a position. -/
def openings (spans : List Span) (i : Nat) : List Token :=
  .replicate (spans.countP (·.first = i)) .openBracket

/-- The brackets that close in front of a position. -/
def closings (spans : List Span) (i : Nat) : List Token :=
  .replicate (spans.countP (·.stop = i)) .closeBracket

/-- Brackets around spans of a list, where each token has been replaced by its image. The first
image is the one at the given position. Brackets that close come before those that open.
-/
def bracketed (spans : List Span) : Nat → List (List Token) → List Token
  | i, [] => closings spans i
  | i, image :: images =>
      closings spans i ++ openings spans i ++ image ++ bracketed spans (i + 1) images

section

variable {a b spans : List Span} {s : Span} {i start : Nat} {images : List (List Token)}

theorem openings_append
    : openings (a ++ b) i = openings a i ++ openings b i := by
  rw [openings, List.countP_append, List.replicate_add, openings, openings]

theorem closings_append
    : closings (a ++ b) i = closings a i ++ closings b i := by
  rw [closings, List.countP_append, List.replicate_add, closings, closings]

theorem openings_eq_nil (none : ∀ s ∈ spans, s.first ≠ i)
    : openings spans i = [] := by
  simpa [openings] using none

theorem closings_eq_nil (none : ∀ s ∈ spans, s.stop ≠ i)
    : closings spans i = [] := by
  simpa [closings] using none

/-- Only the brackets from the first image on count. -/
theorem bracketed_congr
    (same : ∀ j ≥ i, openings a j = openings b j ∧ closings a j = closings b j)
    : bracketed a i images = bracketed b i images := by
  induction images generalizing i with
  | nil => exact (same i (Nat.le_refl i)).2
  | cons image images ih =>
      have behind := ih fun j later => same j (Nat.le_of_succ_le later)
      rw [bracketed, bracketed, (same i (Nat.le_refl i)).1, (same i (Nat.le_refl i)).2, behind]

theorem bracketed_perm (perm : a.Perm b)
    : bracketed a i images = bracketed b i images :=
  bracketed_congr fun j _ => by simp [openings, closings, perm.countP_eq]

/-- Brackets in two parts of a list do not meet. Witness: induction on the first part. -/
theorem bracketed_append {later : List (List Token)}
    (front : ∀ s ∈ a, s.first < s.stop ∧ s.stop ≤ start + images.length)
    (behind : ∀ s ∈ b, start + images.length ≤ s.first ∧ s.first < s.stop)
    : bracketed (a ++ b) start (images ++ later)
      = bracketed a start images ++ bracketed b (start + images.length) later := by
  induction images generalizing start with
  | nil =>
      simp only [List.length_nil, Nat.add_zero] at front behind
      have closes : closings b start = [] := closings_eq_nil fun s member => by
        have := behind s member
        omega
      have opens : openings a start = [] := openings_eq_nil fun s member => by
        have := front s member
        omega
      cases later with
      | nil => simp [bracketed, closings_append]
      | cons image later =>
          have rest : bracketed (a ++ b) (start + 1) later = bracketed b (start + 1) later := by
            refine bracketed_congr fun j after => ?_
            rw [openings_append, closings_append, openings_eq_nil, closings_eq_nil]
            · simp
            · intro s member
              have := front s member
              omega
            · intro s member
              have := front s member
              omega
          simp [bracketed, openings_append, closings_append, opens, closes, rest]
  | cons image images ih =>
      rw [List.length_cons, ← Nat.add_assoc, Nat.add_right_comm] at front behind
      have closes : closings b start = [] := closings_eq_nil fun s member => by
        have := behind s member
        omega
      have opens : openings b start = [] := openings_eq_nil fun s member => by
        have := behind s member
        omega
      have rest := ih front behind
      rw [Nat.add_right_comm, Nat.add_assoc] at rest
      simp [bracketed, openings_append, closings_append, opens, closes, rest]

/-- A bracket that opened before and closes at the end. -/
theorem bracketed_cons_of_stop (opened : s.first < i) (stop : s.stop = i + images.length)
    : bracketed (s :: spans) i images = bracketed spans i images ++ [.closeBracket] := by
  induction images generalizing i with
  | nil =>
      have closes : s.stop = i := stop
      simp [bracketed, closings, closes, List.replicate_succ']
  | cons image images ih =>
      rw [List.length_cons] at stop
      have behind := ih (by omega) (by omega : s.stop = i + 1 + images.length)
      have opens : s.first ≠ i := by omega
      have closes : s.stop ≠ i := by omega
      simp [bracketed, openings, closings, opens, closes, behind]

/-- A bracket pair around all images goes around everything else. -/
theorem bracketed_cons_of_all (inside : ∀ s ∈ spans, i ≤ s.first ∧ s.first < s.stop)
    (nonempty : images ≠ [])
    : bracketed (⟨i, i + images.length⟩ :: spans) i images
      = .openBracket :: bracketed spans i images ++ [.closeBracket] := by
  obtain ⟨image, images, rfl⟩ := List.exists_cons_of_ne_nil nonempty
  have behind := @bracketed_cons_of_stop spans ⟨i, i + (image :: images).length⟩ (i + 1) images
    (Nat.lt_succ_self i) (by simp; omega)
  have closes : closings spans i = [] := closings_eq_nil fun s member => by
    have := inside s member
    omega
  have opens : openings (⟨i, i + (image :: images).length⟩ :: spans) i
      = .openBracket :: openings spans i := by
    simp [openings, List.replicate_succ]
  have starts : closings (⟨i, i + (image :: images).length⟩ :: spans) i = [] := by
    rw [← closes]
    simp [closings]
  rw [bracketed, behind, bracketed, closes, opens, starts]
  simp

end

/-- The output is what brackets around parallel spans of the images make of them. -/
structure Brackets (spans : List Span) (start : Nat) (images : List (List Token))
    (output : List Token) : Prop where
  inside : ∀ s ∈ spans, start ≤ s.first ∧ s.first < s.stop ∧ s.stop ≤ start + images.length
  parallel : spans.Pairwise Span.Parallel
  output : bracketed spans start images = output

namespace Brackets

variable {a b : List Span} {start : Nat} {front back : List (List Token)} {first later : List Token}

theorem nil (start : Nat)
    : Brackets [] start [] [] :=
  ⟨by simp, .nil, rfl⟩

theorem single (start : Nat) (image : List Token)
    : Brackets [] start [image] image :=
  ⟨by simp, .nil, by simp [bracketed, closings, openings]⟩

/-- Brackets in two parts of a list, one behind the other. Witness: each span ends in its own part,
so the spans of different parts are apart.
-/
theorem append (left : Brackets a start front first)
    (right : Brackets b (start + front.length) back later)
    : Brackets (a ++ b) start (front ++ back) (first ++ later) where
  inside := by
    intro s member
    rw [List.length_append]
    rcases List.mem_append.mp member with member | member
    · have := left.inside s member
      omega
    · have := right.inside s member
      omega
  parallel := by
    refine List.pairwise_append.mpr ⟨left.parallel, right.parallel, fun s member t other => ?_⟩
    have := left.inside s member
    have := right.inside t other
    exact .inl (by omega)
  output := by
    rw [bracketed_append, left.output, right.output]
    · intro s member
      have := left.inside s member
      omega
    · intro s member
      have := right.inside s member
      omega

theorem perm (brackets : Brackets a start front first) (perm : a.Perm b)
    : Brackets b start front first where
  inside s member := brackets.inside s (perm.mem_iff.mpr member)
  parallel := (perm.pairwise_iff Span.Parallel.symm).mp brackets.parallel
  output := (bracketed_perm perm).symm.trans brackets.output

/-- One more pair of brackets goes around everything. -/
theorem enclose (brackets : Brackets a start front first) (nonempty : front ≠ [])
    : Brackets (⟨start, start + front.length⟩ :: a) start front
      (.openBracket :: first ++ [.closeBracket]) where
  inside := by
    intro s member
    rcases List.mem_cons.mp member with rfl | member
    · have := List.length_pos_of_ne_nil nonempty
      simpa
    · exact brackets.inside s member
  parallel := by
    refine .cons (fun s member => ?_) brackets.parallel
    have := brackets.inside s member
    exact .inr (.inr (.inl (by simp only; omega)))
  output := by
    rw [bracketed_cons_of_all (fun s member => ?_) nonempty, brackets.output]
    have := brackets.inside s member
    omega

end Brackets

--------------------------------------------------------------------------------
-- Passes over a list
--------------------------------------------------------------------------------

/-- What a function gives for each token of a list, from the tokens in front of it, the nearest one
first, and those behind it.
-/
def along {α : Type} (f : List Token → Token → List Token → α)
    : List Token → List Token → List Token → List α
  | _, [], _ => []
  | before, t :: rest, after => f before t (rest ++ after) :: along f (t :: before) rest after

@[simp]
theorem length_along {α : Type} (f : List Token → Token → List Token → α)
    (before tokens after : List Token)
    : (along f before tokens after).length = tokens.length := by
  induction tokens generalizing before with
  | nil => rfl
  | cons t rest ih => simp [along, ih]

/-- What is computed along a list is computed part by part, each between what surrounds it. -/
theorem along_append {α : Type} (f : List Token → Token → List Token → α)
    (before front back after : List Token)
    : along f before (front ++ back) after
      = along f before front (back ++ after) ++ along f (front.reverse ++ before) back after := by
  induction front generalizing before with
  | nil => rfl
  | cons t front ih => simp [along, ih]

/-- What a pass over a list does for the sake of each token: it puts in brackets around a span, and
it replaces the token by others.
-/
structure Pass where
  span? : List Token → Token → List Token → Option Span
  image : List Token → Token → List Token → List Token

namespace Pass

/-- The spans around which a pass puts brackets for the sake of tokens between others. -/
def spansIn (p : Pass) (before tokens after : List Token) : List Span :=
  (along p.span? before tokens after).reduceOption

/-- The spans around which a pass puts brackets. -/
def spans (p : Pass) (tokens : List Token) : List Span :=
  p.spansIn [] tokens []

/-- What a pass replaces tokens between others by. -/
def imagesIn (p : Pass) (before tokens after : List Token) : List (List Token) :=
  along p.image before tokens after

/-- What a pass replaces the tokens of a list by. -/
def images (p : Pass) (tokens : List Token) : List (List Token) :=
  p.imagesIn [] tokens []

/-- A token stays as it is, without brackets. -/
def Keeps (p : Pass) (t : Token) : Prop :=
  ∀ before after, p.span? before t after = none ∧ p.image before t after = [t]

/-- A pass turns tokens between others into the output. -/
def Rewrites (p : Pass) (before tokens after output : List Token) : Prop :=
  Brackets (p.spansIn before tokens after) before.length (p.imagesIn before tokens after) output

namespace Rewrites

variable {p : Pass} {before tokens front back after first later output : List Token} {t : Token}

theorem nil (p : Pass) (before after : List Token)
    : p.Rewrites before [] after [] :=
  Brackets.nil before.length

theorem append (left : p.Rewrites before front (back ++ after) first)
    (right : p.Rewrites (front.reverse ++ before) back after later)
    : p.Rewrites before (front ++ back) after (first ++ later) := by
  unfold Rewrites spansIn imagesIn at *
  rw [along_append, along_append, List.reduceOption_append]
  refine Brackets.append left ?_
  simpa [Nat.add_comm] using right

/-- A token for whose sake no brackets are put in. -/
theorem single (none : p.span? before t after = none)
    : p.Rewrites before [t] after (p.image before t after) := by
  have alone := Brackets.single before.length (p.image before t after)
  simpa [Rewrites, spansIn, imagesIn, along, none] using alone

theorem cons (none : p.span? before t (tokens ++ after) = none)
    (rewrites : p.Rewrites (t :: before) tokens after output)
    : p.Rewrites before (t :: tokens) after (p.image before t (tokens ++ after) ++ output) :=
  append (single none) rewrites

theorem keep (keeps : p.Keeps t) (rewrites : p.Rewrites (t :: before) tokens after output)
    : p.Rewrites before (t :: tokens) after (t :: output) := by
  obtain ⟨none, image⟩ := keeps before (tokens ++ after)
  have kept := cons none rewrites
  rwa [image] at kept

/-- A group is rewritten inside its brackets. -/
theorem group (keeps : ∀ t : Token, t.isFunction = true ∨ t = .openBracket ∨ t = .closeBracket
      → p.Keeps t)
    (callee : Option Function)
    (inside
      : p.Rewrites (.openBracket :: ((callee.map Token.function).toList ++ before)) tokens
        (.closeBracket :: after) output)
    : p.Rewrites before (groupTokens callee tokens) after (groupTokens callee output) := by
  have closed := inside.append (keep (keeps .closeBracket (by simp)) (.nil p _ after))
  have opened := keep (keeps .openBracket (by simp)) closed
  cases callee with
  | none => simpa [groupTokens] using opened
  | some f => simpa [groupTokens] using keep (keeps (.function f) (.inl rfl)) opened

/-- Brackets around everything that are put in for the sake of one token. -/
theorem enclose
    (span : p.span? (front.reverse ++ before) t (back ++ after)
      = some ⟨before.length, before.length + (front ++ t :: back).length⟩)
    (left : p.Rewrites before front (t :: back ++ after) first)
    (right : p.Rewrites (t :: (front.reverse ++ before)) back after later)
    : p.Rewrites before (front ++ t :: back) after
      (.openBracket :: (first ++ p.image (front.reverse ++ before) t (back ++ after) ++ later)
        ++ [.closeBracket]) := by
  unfold Rewrites spansIn imagesIn at *
  have between := Brackets.single (before.length + front.length)
    (p.image (front.reverse ++ before) t (back ++ after))
  have behind := between.append (by simpa [Nat.add_comm, Nat.add_assoc] using right)
  have marked := (left.append (by simpa using behind)).enclose (by simp)
  simp only [along_append, along, span, List.reduceOption_append, List.reduceOption_cons_of_some]
  have moved := marked.perm List.perm_middle.symm
  simpa using moved

end Rewrites

end Pass

end Calculator.Infix
