import Gazetteer.Proofs.Plane.Sums
import Gazetteer.Proofs.Selection

/-!
# Candidates in another order

A candidate that is not suitable changes nothing: if it lies beyond the best one, so does
everything behind it.  Of two suitable candidates at one distance, each is in reach of whatever
the other is in reach of and of the other itself, so the two are compared in either order and
come to the same best.  Moving candidates past others at their distance turns any ascending list
into any other of the same suitable candidates.
-/

namespace Gazetteer.Candidate

/-- What is asked of distances: they are ordered, and adding the band of ties leads to nothing
less. -/
class BandOrder (K : Type) [Scalar K] : Prop where
  lt_of_lt_of_le : ∀ {first second third : K}, first < second → second ≤ third → first < third
  not_add_tieBand_lt : ∀ distance : K, ¬ distance + tieBand < distance

instance {K : Type} [Field K] [LinearOrder K] [IsStrictOrderedRing K] [ExactRoot K] :
    BandOrder K where
  lt_of_lt_of_le := lt_of_lt_of_le
  not_add_tieBand_lt _ := not_lt.mpr (le_add_of_nonneg_right tieBand_pos.le)

instance : BandOrder Float where
  lt_of_lt_of_le less notMore := by
    obtain ⟨low, isLow, middle, isMiddle, less⟩ := Binary64.lt_iff.mp less
    obtain ⟨middle', isMiddle', high, isHigh, notMore⟩ := Binary64.le_iff.mp notMore
    obtain rfl := Option.mem_unique isMiddle isMiddle'
    exact Binary64.lt_iff.mpr ⟨low, isLow, high, isHigh, less.trans_le notMore⟩
  not_add_tieBand_lt _ := Binary64.not_add_lt (by decide +kernel)

variable {K : Type}

/-! ## The better of two -/

/-- The better of the best candidate so far and another. -/
def better (best candidate : Candidate K) : Candidate K :=
  if candidate.place.precedes best.place then candidate else best

section Better

variable {first second best : Candidate K}

theorem better_of_precedes (ahead : first.place.precedes best.place = true) :
    better best first = first :=
  if_pos ahead

theorem better_of_not_precedes (behind : first.place.precedes best.place = false) :
    better best first = best :=
  if_neg (Bool.eq_false_iff.mp behind)

theorem better_comm (apart : first.place.id = second.place.id → first = second) :
    better first second = better second first := by
  cases ahead : second.place.precedes first.place with
  | true => rw [better_of_precedes ahead, better_of_not_precedes (Place.precedes_asymm ahead)]
  | false =>
      rw [better_of_not_precedes ahead]
      cases behind : first.place.precedes second.place with
      | true => rw [better_of_precedes behind]
      | false => rw [better_of_not_precedes behind, apart (Place.entry_eq_of_level behind ahead).2]

/-- What does not precede the best candidate does not precede a better one. -/
theorem better_of_behind (ahead : first.place.precedes best.place = true)
    (behind : second.place.precedes best.place = false) : better first second = first :=
  better_of_not_precedes (Place.precedes_eq_false_trans behind (Place.precedes_asymm ahead))

theorem better_right_comm (apart : first.place.id = second.place.id → first = second) :
    better (better best first) second = better (better best second) first := by
  cases firstAhead : first.place.precedes best.place with
  | true =>
      cases secondAhead : second.place.precedes best.place with
      | true =>
          rw [better_of_precedes firstAhead, better_of_precedes secondAhead, better_comm apart]
      | false =>
          rw [better_of_precedes firstAhead, better_of_not_precedes secondAhead,
            better_of_behind firstAhead secondAhead, better_of_precedes firstAhead]
  | false =>
      cases secondAhead : second.place.precedes best.place with
      | true =>
          rw [better_of_not_precedes firstAhead, better_of_precedes secondAhead,
            better_of_behind secondAhead firstAhead]
      | false =>
          rw [better_of_not_precedes firstAhead, better_of_not_precedes secondAhead,
            better_of_not_precedes firstAhead]

end Better

/-! ## Going on from a candidate -/

variable [Scalar K] {eligible : Place K → Bool} {first second candidate best : Candidate K}
  {rest others front back : List (Candidate K)}

theorem selectFrom_none_cons (suitable : eligible candidate.place = true) :
    selectFrom eligible none (candidate :: rest) = selectFrom eligible (some candidate) rest := by
  rw [selectFrom, if_pos suitable]

theorem selectFrom_of_not_beyond (inReach : candidate.isBeyond best = false)
    (suitable : eligible candidate.place = true) :
    selectFrom eligible (some best) (candidate :: rest) =
      selectFrom eligible (some (better best candidate)) rest := by
  rw [selectFrom, if_neg (Bool.eq_false_iff.mp inReach), suitable, Bool.true_and, better]
  split <;> rfl

theorem selectFrom_of_all_beyond (beyond : ∀ candidate ∈ rest, candidate.isBeyond best = true) :
    selectFrom eligible (some best) rest = some best := by
  cases rest with
  | nil => rfl
  | cons candidate rest => rw [selectFrom, if_pos (beyond candidate List.mem_cons_self)]

/-- How the search goes on does not depend on what comes behind, but for what it comes to. -/
theorem selectFrom_cons_congr
    (same : ∀ best, selectFrom eligible best rest = selectFrom eligible best others)
    (best : Option (Candidate K)) :
    selectFrom eligible best (candidate :: rest) =
      selectFrom eligible best (candidate :: others) := by
  cases best with
  | none => rw [selectFrom, selectFrom, same]
  | some best => rw [selectFrom, selectFrom, same, same]

/-! ## Ascending candidates -/

/-- Two candidates are at exactly one distance. -/
def Ties (first second : Candidate K) : Prop :=
  first.distance ≤ second.distance ∧ second.distance ≤ first.distance

/-- Candidates at exactly one distance are told apart by the numbers of their places. -/
def ToldApart (candidates : List (Candidate K)) : Prop :=
  ∀ first ∈ candidates, ∀ second ∈ candidates, Ties first second →
    first.place.id = second.place.id → first = second

theorem toldApart_of_nodup (distinct : (rest.map fun candidate => candidate.place.id).Nodup) :
    ToldApart rest :=
  fun _ member _ also _ same => List.inj_on_of_nodup_map distinct member also same

variable [BandOrder K]

theorem isBeyond_of_le (beyond : first.isBeyond best = true)
    (farther : first.distance ≤ second.distance) : second.isBeyond best = true :=
  decide_eq_true (BandOrder.lt_of_lt_of_le (of_decide_eq_true beyond) farther)

/-- Candidates at one distance are in reach of each other. -/
theorem Ties.isBeyond_eq_false (ties : Ties first second) : second.isBeyond first = false := by
  rw [isBeyond, decide_eq_false_iff_not]
  intro beyond
  exact BandOrder.not_add_tieBand_lt _ (BandOrder.lt_of_lt_of_le beyond ties.2)

/-- A candidate in reach of the best one is in reach of the better of that and one at its own
distance. -/
theorem Ties.isBeyond_better_eq_false (ties : Ties first second)
    (inReach : second.isBeyond best = false) : second.isBeyond (better best first) = false := by
  unfold better
  split
  · exact ties.isBeyond_eq_false
  · exact inReach

/-- What is not suitable makes no difference. -/
theorem selectFrom_filter (ascending : Ascending rest) (best : Option (Candidate K)) :
    selectFrom eligible best (rest.filter fun candidate => eligible candidate.place) =
      selectFrom eligible best rest := by
  induction rest generalizing best with
  | nil => rfl
  | cons candidate rest ih =>
      obtain ⟨nearest, ascending⟩ := List.pairwise_cons.mp ascending
      cases suitable : eligible candidate.place with
      | true =>
          rw [List.filter_cons, if_pos suitable]
          exact selectFrom_cons_congr (ih ascending) best
      | false =>
          rw [List.filter_cons, if_neg (Bool.eq_false_iff.mp suitable), ih ascending]
          match best with
          | none => simp [selectFrom, suitable]
          | some best =>
              rw [selectFrom]
              split
              · rename_i beyond
                exact selectFrom_of_all_beyond fun farther member =>
                  isBeyond_of_le beyond (nearest farther member)
              · simp [suitable]

/-- Two suitable candidates at one distance may change places. -/
theorem selectFrom_swap (ties : Ties first second)
    (apart : first.place.id = second.place.id → first = second)
    (firstSuitable : eligible first.place = true) (secondSuitable : eligible second.place = true)
    (best : Option (Candidate K)) :
    selectFrom eligible best (first :: second :: rest) =
      selectFrom eligible best (second :: first :: rest) := by
  have turned : Ties second first := ⟨ties.2, ties.1⟩
  match best with
  | none =>
      rw [selectFrom_none_cons firstSuitable, selectFrom_none_cons secondSuitable,
        selectFrom_of_not_beyond ties.isBeyond_eq_false secondSuitable,
        selectFrom_of_not_beyond turned.isBeyond_eq_false firstSuitable, better_comm apart]
  | some best =>
      cases reach : first.isBeyond best with
      | true =>
          have alsoBeyond := isBeyond_of_le reach ties.1
          rw [selectFrom, if_pos reach, selectFrom, if_pos alsoBeyond]
      | false =>
          have alsoReach : second.isBeyond best = false := by
            by_contra beyond
            have firstBeyond := isBeyond_of_le (Bool.not_eq_false _ ▸ beyond) ties.2
            simp [reach] at firstBeyond
          rw [selectFrom_of_not_beyond reach firstSuitable,
            selectFrom_of_not_beyond (ties.isBeyond_better_eq_false alsoReach) secondSuitable,
            selectFrom_of_not_beyond alsoReach secondSuitable,
            selectFrom_of_not_beyond (turned.isBeyond_better_eq_false reach) firstSuitable,
            better_right_comm apart]

/-- A candidate may go ahead of others at its distance. -/
theorem selectFrom_move (ties : ∀ other ∈ front, Ties other candidate)
    (apart : ∀ other ∈ front, other.place.id = candidate.place.id → other = candidate)
    (suitable : ∀ other ∈ candidate :: front, eligible other.place = true)
    (best : Option (Candidate K)) :
    selectFrom eligible best (front ++ candidate :: back) =
      selectFrom eligible best (candidate :: (front ++ back)) := by
  induction front generalizing best with
  | nil => rfl
  | cons other front ih =>
      have moved := ih (fun rival member => ties rival (.tail _ member))
        (fun rival member => apart rival (.tail _ member)) fun rival member => by
          rcases List.mem_cons.mp member with rfl | member
          · exact suitable rival List.mem_cons_self
          · exact suitable rival (.tail _ (.tail _ member))
      rw [List.cons_append, selectFrom_cons_congr moved]
      exact selectFrom_swap (ties other List.mem_cons_self) (apart other List.mem_cons_self)
        (suitable other (.tail _ List.mem_cons_self)) (suitable candidate List.mem_cons_self) best

theorem selectFrom_eq_of_perm (ascending : Ascending rest) (alsoAscending : Ascending others)
    (apart : ToldApart rest) (suitable : ∀ candidate ∈ rest, eligible candidate.place = true)
    (perm : rest.Perm others) (best : Option (Candidate K)) :
    selectFrom eligible best rest = selectFrom eligible best others := by
  induction rest generalizing others best with
  | nil => rw [perm.nil_eq]
  | cons candidate rest ih =>
      obtain ⟨front, back, rfl⟩ := List.append_of_mem (perm.mem_iff.mp List.mem_cons_self)
      obtain ⟨nearest, ascending⟩ := List.pairwise_cons.mp ascending
      obtain ⟨frontAscending, _, farther⟩ := List.pairwise_append.mp alsoAscending
      have among : ∀ other ∈ front, other ∈ candidate :: rest := fun other member =>
        perm.mem_iff.mpr (List.mem_append_left _ member)
      have ties : ∀ other ∈ front, Ties other candidate := by
        intro other member
        have notFarther := farther other member candidate List.mem_cons_self
        refine ⟨notFarther, ?_⟩
        rcases List.mem_cons.mp (among other member) with rfl | later
        · exact notFarther
        · exact nearest other later
      have left : rest.Perm (front ++ back) := (perm.trans List.perm_middle).cons_inv
      have leftAscending : Ascending (front ++ back) :=
        alsoAscending.sublist ((List.sublist_cons_self candidate back).append_left front)
      rw [selectFrom_move ties
        (fun other member => apart other (among other member) candidate List.mem_cons_self
          (ties other member))
        (fun other member => by
          rcases List.mem_cons.mp member with rfl | member
          · exact suitable other List.mem_cons_self
          · exact suitable other (among other member))]
      exact selectFrom_cons_congr (ih ascending leftAscending
        (fun one member other also => apart one (.tail _ member) other (.tail _ also))
        (fun other member => suitable other (.tail _ member)) left) best

/-- Two ascending lists with the same suitable candidates come to the same one, whatever else
they list and in whichever order candidates at exactly one distance come. -/
theorem select_eq_of_perm {suitability : Suitability} {first second : List (Candidate K)}
    (ascending : Ascending first) (alsoAscending : Ascending second) (apart : ToldApart first)
    (perm : (first.filter fun candidate => suitability.isEligible candidate.place).Perm
      (second.filter fun candidate => suitability.isEligible candidate.place)) :
    select suitability first = select suitability second := by
  rw [select, select, ← selectFrom_filter ascending, ← selectFrom_filter alsoAscending]
  apply selectFrom_eq_of_perm (ascending.filter _) (alsoAscending.filter _) ?_ ?_ perm
  · intro one member other also
    exact apart one (List.mem_of_mem_filter member) other (List.mem_of_mem_filter also)
  · intro candidate member
    exact (List.mem_filter.mp member).2

/-- A lamp of a rank, seen from a distance. -/
def lamp (id : PlaceId) (rank : Rank) (distance : Float) : Candidate Float where
  distance := distance
  place :=
    { id := id
      element := .node
      elementId := 0
      category := "highway"
      placeType := "street_lamp"
      geometry := .point ⟨0, 0⟩
      bounds := ⟨0, 0, 0, 0⟩
      centroid := ⟨0, 0⟩
      searchRank := 30
      addressRank := rank }

/-- Two lamps change places, and two that have no rank are left out: of the two at the smallest
distance the one of the higher rank is selected. -/
theorem select_eq_of_perm_lamps :
    let first := [lamp 4 0 0.1, lamp 0 26 0.5, lamp 3 0 0.5, lamp 1 30 0.5, lamp 2 30 0.6]
    let second := [lamp 1 30 0.5, lamp 0 26 0.5, lamp 2 30 0.6]
    Ascending first ∧ Ascending second ∧ ToldApart first ∧
      select ⟨26, []⟩ first = select ⟨26, []⟩ second ∧
      (select ⟨26, []⟩ second).map (fun selected => selected.place.id) = some 1 := by
  intro first second
  have ascending : Ascending first := by
    unfold Ascending
    decide +kernel
  have alsoAscending : Ascending second := by
    unfold Ascending
    decide +kernel
  have apart : ToldApart first := toldApart_of_nodup (by decide +kernel)
  have perm := List.Perm.swap (lamp 1 30 0.5) (lamp 0 26 0.5) [lamp 2 30 0.6]
  exact ⟨ascending, alsoAscending, apart,
    select_eq_of_perm ascending alsoAscending apart perm, by decide +kernel⟩

end Gazetteer.Candidate
