import Gazetteer.Plane.Simplify.Thinning
import Gazetteer.Proofs.Plane.Comparison

/-!
# What thinning keeps

The vertex at which thinning splits is the first of those that deviate most.  It still is
where other vertices are left out, so thinning what has been thinned splits at the same
vertices again, as long as they deviate by more than the second tolerance too.
-/

namespace Gazetteer.Simplify

variable {κ δ : Type}

/-! ## The first vertex that deviates most -/

section Peak

variable [LT δ]

/-- The vertex between `before` and `after` deviates by more than a bound, by more than what
is before it and beyond the bound, and by no less than what is after it. -/
structure IsPeak (deviation : κ → δ) (bound : δ) (before : List κ) (middle : κ)
    (after : List κ) : Prop where
  beyond : bound < deviation middle
  first : ∀ vertex ∈ before, bound < deviation vertex → deviation vertex < deviation middle
  most : ∀ vertex ∈ after, ¬ deviation middle < deviation vertex

variable {deviation : κ → δ} {bound : δ} {before after : List κ} {middle : κ}

/-- A peak stays one where other vertices are left out. -/
theorem IsPeak.sublist (isPeak : IsPeak deviation bound before middle after)
    {fewer rest : List κ} (left : fewer.Sublist before) (right : rest.Sublist after) :
    IsPeak deviation bound fewer middle rest := by
  constructor
  · exact isPeak.beyond
  · intro vertex member
    exact isPeak.first vertex (left.subset member)
  · intro vertex member
    exact isPeak.most vertex (right.subset member)

/-- Vertices of which one deviates by more than a bound have a peak. -/
theorem flat_or_isPeak [FloatingOrder δ] (deviation : κ → δ) (bound : δ) (vertices : List κ) :
    (∀ vertex ∈ vertices, ¬ bound < deviation vertex) ∨
      ∃ before middle after, vertices = before ++ middle :: after ∧
        IsPeak deviation bound before middle after := by
  induction vertices generalizing bound with
  | nil => exact Or.inl fun vertex member => absurd member List.not_mem_nil
  | cons vertex rest ih =>
      by_cases higher : bound < deviation vertex
      · right
        rcases ih (deviation vertex) with flat | ⟨before, middle, after, rfl, isPeak⟩
        · refine ⟨[], vertex, rest, rfl, higher, ?_, flat⟩
          intro other member
          exact absurd member List.not_mem_nil
        · refine ⟨vertex :: before, middle, after, rfl,
            FloatingOrder.trans higher isPeak.beyond, ?_, isPeak.most⟩
          intro other member beyond
          rcases List.mem_cons.mp member with rfl | earlier
          · exact isPeak.beyond
          · -- A deviation that is beyond the bound compares, so it cannot escape both ends.
            rcases FloatingOrder.apart isPeak.beyond (Or.inr beyond) with above | below
            · exact isPeak.first other earlier above
            · exact below
      · rcases ih bound with flat | ⟨before, middle, after, rfl, isPeak⟩
        · left
          intro other member
          rcases List.mem_cons.mp member with rfl | later
          · exact higher
          · exact flat other later
        · right
          refine ⟨vertex :: before, middle, after, rfl, isPeak.beyond, ?_, isPeak.most⟩
          intro other member beyond
          rcases List.mem_cons.mp member with rfl | earlier
          · exact absurd beyond higher
          · exact isPeak.first other earlier beyond

variable [DecidableLT δ]

theorem peak_of_flat {vertices : List κ} (flat : ∀ vertex ∈ vertices, ¬ bound < deviation vertex)
    (position index : Nat) : peak deviation vertices position (index, bound) = (index, bound) := by
  induction vertices generalizing position with
  | nil => rfl
  | cons vertex rest ih =>
      rw [peak, if_neg (flat vertex List.mem_cons_self)]
      exact ih (fun other member => flat other (List.mem_cons_of_mem _ member)) (position + 1)

/-- The search for the peak finds it. -/
theorem peak_of_isPeak [FloatingOrder δ] (isPeak : IsPeak deviation bound before middle after)
    (position index : Nat) :
    peak deviation (before ++ middle :: after) position (index, bound) =
      (position + before.length, deviation middle) := by
  induction before generalizing position index bound with
  | nil =>
      rw [List.nil_append, peak, if_pos isPeak.beyond]
      exact peak_of_flat isPeak.most (position + 1) position
  | cons vertex rest ih =>
      have further : position + 1 + rest.length = position + (vertex :: rest).length := by
        rw [List.length_cons, Nat.add_assoc, Nat.add_comm 1]
      rw [List.cons_append, peak, ← further]
      split
      · rename_i higher
        have fromVertex : IsPeak deviation (deviation vertex) rest middle after := by
          refine ⟨isPeak.first vertex List.mem_cons_self higher, ?_, isPeak.most⟩
          intro other member above
          exact isPeak.first other (List.mem_cons_of_mem _ member)
            (FloatingOrder.trans higher above)
        exact ih fromVertex (position + 1) position
      · exact ih (isPeak.sublist (List.sublist_cons_self ..) (List.Sublist.refl _)) (position + 1)
          index

end Peak

/-! ## Splits -/

theorem cutAt?_length (before : List κ) (middle : κ) (after : List κ) :
    cutAt? (before ++ middle :: after) before.length = some (before, middle, after) := by
  simp [cutAt?]

variable [Zero δ] [LT δ] [DecidableLT δ] {deviation : Segment κ → κ → δ} {tolerance : δ}
  {first last middle : κ} {before after interior : List κ}

theorem splitBetween?_of_isPeak [FloatingOrder δ]
    (isPeak : IsPeak (deviation ⟨first, last⟩) 0 before middle after) :
    splitBetween? deviation tolerance first last (before ++ middle :: after) =
      if tolerance < deviation ⟨first, last⟩ middle then some (before, middle, after)
      else none := by
  simp only [splitBetween?, peak_of_isPeak isPeak, Nat.zero_add, cutAt?_length]

theorem splitBetween?_of_flat [FloatingOrder δ] (positive : 0 < tolerance)
    (flat : ∀ vertex ∈ interior, ¬ 0 < deviation ⟨first, last⟩ vertex) :
    splitBetween? deviation tolerance first last interior = none := by
  rw [splitBetween?, peak_of_flat flat]
  exact if_neg (FloatingOrder.asymm positive)

/-- A split is at the peak of the interior, and this deviates by more than the tolerance. -/
theorem isPeak_of_splitBetween? [FloatingOrder δ] (positive : 0 < tolerance)
    (split : splitBetween? deviation tolerance first last interior =
      some (before, middle, after)) :
    IsPeak (deviation ⟨first, last⟩) 0 before middle after ∧
      tolerance < deviation ⟨first, last⟩ middle := by
  rcases flat_or_isPeak (deviation ⟨first, last⟩) 0 interior with flat | ⟨_, _, _, rfl, isPeak⟩
  · rw [splitBetween?_of_flat positive flat] at split
    contradiction
  · rw [splitBetween?_of_isPeak isPeak] at split
    obtain ⟨beyond, same⟩ := Option.ite_none_right_eq_some.mp split
    obtain ⟨rfl, rfl, rfl⟩ : _ = before ∧ _ = middle ∧ _ = after := by simpa using same
    exact ⟨isPeak, beyond⟩

/-! ## Between two kept vertices -/

theorem thinBetween_of_splitBetween?_eq_none
    (whole : splitBetween? deviation tolerance first last interior = none) :
    thinBetween deviation tolerance first last interior = [] := by
  rw [thinBetween]
  split
  · rfl
  · rename_i found
    rw [whole] at found
    contradiction

theorem thinBetween_of_splitBetween?_eq_some
    (split : splitBetween? deviation tolerance first last interior =
      some (before, middle, after)) :
    thinBetween deviation tolerance first last interior =
      thinBetween deviation tolerance first middle before ++
        middle :: thinBetween deviation tolerance middle last after := by
  rw [thinBetween]
  split
  · rename_i found
    rw [split] at found
    contradiction
  · rename_i found
    rw [split] at found
    obtain ⟨rfl, rfl, rfl⟩ : before = _ ∧ middle = _ ∧ after = _ := by simpa using found
    rfl

@[simp] theorem thinBetween_nil : thinBetween deviation tolerance first last [] = [] := by
  apply thinBetween_of_splitBetween?_eq_none
  rw [splitBetween?, peak]
  exact ite_eq_right_iff.mpr fun _ => rfl

/-- Thinning leaves vertices out and does nothing else. -/
theorem thinBetween_sublist (deviation : Segment κ → κ → δ) (tolerance : δ) (first last : κ)
    (interior : List κ) :
    (thinBetween deviation tolerance first last interior).Sublist interior := by
  fun_induction thinBetween deviation tolerance first last interior with
  | case1 first last interior _ => exact List.nil_sublist interior
  | case2 first last interior before middle after found left right =>
      rw [eq_of_splitBetween? found]
      exact left.append (right.cons_cons middle)

/-- At the peak of an interior that is above the tolerance, thinning goes on with both sides. -/
theorem thinBetween_of_isPeak [FloatingOrder δ]
    (isPeak : IsPeak (deviation ⟨first, last⟩) 0 before middle after)
    (beyond : tolerance < deviation ⟨first, last⟩ middle) :
    thinBetween deviation tolerance first last (before ++ middle :: after) =
      thinBetween deviation tolerance first middle before ++
        middle :: thinBetween deviation tolerance middle last after := by
  apply thinBetween_of_splitBetween?_eq_some
  rw [splitBetween?_of_isPeak isPeak, if_pos beyond]

/-- Below the tolerance, thinning leaves nothing. -/
theorem thinBetween_of_isPeak_of_not_lt [FloatingOrder δ]
    (isPeak : IsPeak (deviation ⟨first, last⟩) 0 before middle after)
    (within : ¬ tolerance < deviation ⟨first, last⟩ middle) :
    thinBetween deviation tolerance first last (before ++ middle :: after) = [] := by
  apply thinBetween_of_splitBetween?_eq_none
  rw [splitBetween?_of_isPeak isPeak, if_neg within]

/-- Thinning what has been thinned is thinning once, at the greater of the two tolerances. -/
theorem thinBetween_thinBetween [FloatingOrder δ] {second : δ} (positive : 0 < tolerance)
    (secondPositive : 0 < second) (deviation : Segment κ → κ → δ) (first last : κ)
    (interior : List κ) :
    thinBetween deviation second first last
        (thinBetween deviation tolerance first last interior) =
      thinBetween deviation (if tolerance < second then second else tolerance) first last
        interior := by
  have greater : ∀ {value : δ}, (if tolerance < second then second else tolerance) < value ↔
      tolerance < value ∧ second < value :=
    FloatingOrder.greater_lt_iff (Or.inr secondPositive)
  fun_induction thinBetween deviation tolerance first last interior with
  | case1 first last interior whole =>
      rw [thinBetween_nil]
      symm
      apply thinBetween_of_splitBetween?_eq_none
      rcases flat_or_isPeak (deviation ⟨first, last⟩) 0 interior with
        flat | ⟨before, middle, after, rfl, isPeak⟩
      · apply splitBetween?_of_flat _ flat
        split <;> assumption
      · rw [splitBetween?_of_isPeak isPeak] at whole ⊢
        apply if_neg
        intro beyond
        rw [if_pos (greater.mp beyond).1] at whole
        contradiction
  | case2 first last interior before middle after found left right =>
      obtain ⟨isPeak, beyond⟩ := isPeak_of_splitBetween? positive found
      obtain rfl := eq_of_splitBetween? found
      have isPeakAgain := isPeak.sublist
        (thinBetween_sublist deviation tolerance first middle before)
        (thinBetween_sublist deviation tolerance middle last after)
      -- The first thinning left the peak where it was, so the second one meets it again.
      by_cases reaches : second < deviation ⟨first, last⟩ middle
      · rw [thinBetween_of_isPeak isPeakAgain reaches, left, right,
          thinBetween_of_isPeak isPeak (greater.mpr ⟨beyond, reaches⟩)]
      · have reachesNone : ¬ (if tolerance < second then second else tolerance) <
            deviation ⟨first, last⟩ middle :=
          fun beyondBoth => reaches (greater.mp beyondBoth).2
        rw [thinBetween_of_isPeak_of_not_lt isPeakAgain reaches,
          thinBetween_of_isPeak_of_not_lt isPeak reachesNone]

end Gazetteer.Simplify
