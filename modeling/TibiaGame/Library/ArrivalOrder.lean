import Mathlib.Tactic

/-!
# Lists in order of arrival

In every step a list loses some of its elements or gets a new one at its end. Then no
element is there twice, and the elements stand in the order in which they came.
-/

namespace TibiaGame.Library.ArrivalOrder

variable {Element : Type*} {rows : Nat → List Element}

structure Queueing (rows : Nat → List Element) : Prop where
  start : rows 0 = []
  step : ∀ now, (rows (now + 1)).Sublist (rows now) ∨
    ∃ element, element ∉ rows now ∧ rows (now + 1) = rows now ++ [element]

/-- The element came in the step after the row `came`, and has been there since. -/
structure Since (rows : Nat → List Element) (now came : Nat) (element : Element) : Prop where
  before : came < now
  away : element ∉ rows came
  stays : ∀ later, came < later → later ≤ now → element ∈ rows later

theorem Since.earlier {now came : Nat} {element : Element}
    (since : Since rows (now + 1) came element) (there : came < now) : Since rows now came element where
  before := there
  away := since.away
  stays := fun later after upTo => since.stays later after (Nat.le_succ_of_le upTo)

theorem Queueing.nodup (queueing : Queueing rows) (now : Nat) : (rows now).Nodup := by
  induction now with
  | zero =>
    rw [queueing.start]
    exact List.nodup_nil
  | succ now ih =>
    rcases queueing.step now with fewer | ⟨element, away, grown⟩
    · exact ih.sublist fewer
    rw [grown]
    apply List.nodup_append.mpr
    refine ⟨ih, List.nodup_singleton element, ?_⟩
    intro old member new last same
    rw [List.mem_singleton.mp last] at same
    rw [same] at member
    exact away member

/-- Whoever stands in the list came at some time. -/
theorem Queueing.arrived (queueing : Queueing rows) {now : Nat} {element : Element}
    (member : element ∈ rows now) : ∃ came, Since rows now came element := by
  induction now with
  | zero =>
    rw [queueing.start] at member
    cases member
  | succ now ih =>
    by_cases there : element ∈ rows now
    · rcases ih there with ⟨came, since⟩
      refine ⟨came, Nat.lt_succ_of_lt since.before, since.away, ?_⟩
      intro later after upTo
      rcases Nat.lt_or_eq_of_le upTo with less | last
      · exact since.stays later after (Nat.le_of_lt_succ less)
      rw [last]
      exact member
    refine ⟨now, Nat.lt_succ_self now, there, ?_⟩
    intro later after upTo
    have last : later = now + 1 := by omega
    rw [last]
    exact member

/-- An element that was there before came before. -/
theorem Since.there {now came : Nat} {element : Element} (since : Since rows (now + 1) came element)
    (member : element ∈ rows now) : Since rows now came element := by
  apply since.earlier
  apply Nat.lt_of_le_of_ne (Nat.le_of_lt_succ since.before)
  intro same
  have away := since.away
  rw [same] at away
  exact away member

/-- Whoever stands further in front came earlier. -/
theorem Queueing.order (queueing : Queueing rows) (now : Nat) :
    (rows now).Pairwise fun front back => ∀ frontCame backCame, Since rows now frontCame front →
      Since rows now backCame back → frontCame < backCame := by
  induction now with
  | zero =>
    rw [queueing.start]
    exact .nil
  | succ now ih =>
    have old : (rows now).Pairwise fun front back => ∀ frontCame backCame,
        Since rows (now + 1) frontCame front → Since rows (now + 1) backCame back →
        frontCame < backCame := by
      apply ih.imp_of_mem
      intro front back frontIn backIn earlier frontCame backCame frontSince backSince
      exact earlier frontCame backCame (frontSince.there frontIn) (backSince.there backIn)
    rcases queueing.step now with fewer | ⟨element, away, grown⟩
    · exact old.sublist fewer
    rw [grown]
    apply List.pairwise_append.mpr
    refine ⟨old, List.pairwise_singleton _ _, ?_⟩
    intro front member back last frontCame backCame frontSince backSince
    rw [List.mem_singleton.mp last] at backSince
    have frontBefore := (frontSince.there member).before
    by_contra notEarlier
    exact away (backSince.stays now (by omega) (Nat.le_succ now))

end TibiaGame.Library.ArrivalOrder
