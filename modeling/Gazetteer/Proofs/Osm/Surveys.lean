import Gazetteer.Osm.Extraction
import Gazetteer.Proofs.Osm.Records
import Mathlib.Data.List.Nodup

/-!
# What a survey leaves out

A survey keeps the boundaries of wanted areas, the ways that are wanted or on such a boundary,
and the nodes on these ways.  Nothing that is asked of it is missing: a way that is wanted or
bounds a wanted area has all vertices that the map knows, and wanted elements have the shapes
that they have in a survey of everything.
-/

namespace Gazetteer.Osm

open Std (HashMap HashSet TreeMap)

/-! ## Lists as maps -/

section Maps

variable {κ β : Type} {entries : List (κ × β)} {key : κ} {value : β}

/-- What finds every entry of a list, and nothing under other keys, finds exactly the
entries. -/
theorem eq_some_iff_mem (lookup : κ → Option β)
    (present : ∀ entry ∈ entries, lookup entry.1 = some entry.2)
    (absent : ∀ key, key ∉ entries.map Prod.fst → lookup key = none) :
    lookup key = some value ↔ (key, value) ∈ entries := by
  constructor
  · intro found
    by_cases listed : key ∈ entries.map Prod.fst
    · obtain ⟨entry, member, rfl⟩ := List.mem_map.mp listed
      cases (present entry member).symm.trans found
      exact member
    · rw [absent key listed] at found
      contradiction
  · exact present (key, value)

theorem hashMap_ofList_eq_some_iff [BEq κ] [Hashable κ] [LawfulBEq κ]
    (distinct : entries.Pairwise fun first second => first.1 ≠ second.1) :
    (HashMap.ofList entries)[key]? = some value ↔ (key, value) ∈ entries := by
  refine eq_some_iff_mem (fun key : κ => (HashMap.ofList entries)[key]?) ?_ ?_
  · intro entry member
    exact HashMap.getElem?_ofList_of_mem (beq_self_eq_true _)
      (distinct.imp beq_eq_false_iff_ne.mpr) member
  · intro key unlisted
    apply HashMap.getElem?_ofList_of_contains_eq_false
    simpa using unlisted

theorem treeMap_ofList_eq_some_iff [Ord κ] [Std.TransOrd κ] [Std.LawfulEqOrd κ] [DecidableEq κ]
    (distinct : entries.Pairwise fun first second => first.1 ≠ second.1) :
    (TreeMap.ofList entries : TreeMap κ β)[key]? = some value ↔ (key, value) ∈ entries := by
  refine eq_some_iff_mem (fun key : κ => (TreeMap.ofList entries : TreeMap κ β)[key]?) ?_ ?_
  · intro entry member
    exact TreeMap.getElem?_ofList_of_mem Std.ReflCmp.compare_self
      (distinct.imp fun differ same => differ (Std.LawfulEqCmp.eq_of_compare same)) member
  · intro key unlisted
    apply TreeMap.getElem?_ofList_of_contains_eq_false
    simpa using unlisted

end Maps

/-! ## Elements and their numbers -/

/-- No two elements of one kind have the same number. -/
def HasUniqueIds (elements : List Element) : Prop :=
  (elements.map fun element => (element.kind, element.id)).Nodup

instance (elements : List Element) : Decidable (HasUniqueIds elements) :=
  inferInstanceAs (Decidable (List.Nodup _))

variable {wanted : Tags → Bool} {elements : List Element}

theorem HasUniqueIds.eq_of_id_eq (unique : HasUniqueIds elements) {first second : Element}
    (isFirst : first ∈ elements) (isSecond : second ∈ elements) (kind : first.kind = second.kind)
    (id : first.id = second.id) : first = second :=
  List.inj_on_of_nodup_map unique isFirst isSecond (Prod.ext kind id)

/-- What is made of elements of one kind, under their numbers, has distinct numbers. -/
theorem HasUniqueIds.distinct {β : Type} (unique : HasUniqueIds elements)
    {make : Element → Option β} {number : β → ElementId} (kind : ElementKind)
    (own : ∀ element made, make element = some made →
      element.kind = kind ∧ element.id = number made) :
    (elements.filterMap make).Pairwise fun first second => number first ≠ number second := by
  rw [List.pairwise_filterMap]
  rw [HasUniqueIds, List.Nodup, List.pairwise_map] at unique
  apply unique.imp
  intro one other differ first isFirst second isSecond same
  obtain ⟨oneKind, oneId⟩ := own one first isFirst
  obtain ⟨otherKind, otherId⟩ := own other second isSecond
  apply differ
  rw [oneKind, otherKind, oneId, otherId, same]

/-- The position of the node with a number, if the map has that node. -/
def position? (elements : List Element) (id : ElementId) : Option (Coord Float) :=
  elements.findSome? fun
    | .node node => if node.id = id then some node.position else none
    | _ => none

theorem position?_eq_some_iff (unique : HasUniqueIds elements) {id : ElementId}
    {position : Coord Float} :
    position? elements id = some position ↔
      ∃ node, .node node ∈ elements ∧ node.id = id ∧ node.position = position := by
  have sound {position : Coord Float} (found : position? elements id = some position) :
      ∃ node, .node node ∈ elements ∧ node.id = id ∧ node.position = position := by
    obtain ⟨element, member, shown⟩ := List.exists_of_findSome?_eq_some found
    cases element with
    | node node => exact ⟨node, member, by simpa using shown⟩
    | way way => contradiction
    | relation relation => contradiction
  constructor
  · exact sound
  · rintro ⟨node, member, rfl, rfl⟩
    cases found : position? elements node.id with
    | none =>
        have missed := List.findSome?_eq_none_iff.mp found _ member
        simp at missed
    | some position =>
        obtain ⟨other, isOther, same, rfl⟩ := sound found
        cases unique.eq_of_id_eq isOther member rfl same
        rfl

/-! ## What is needed -/

/-- Whether a way is on the boundary of the area that a relation describes: a member without a
role, or with one of the two sides of a boundary as its role. -/
def Relation.IsBoundedBy (relation : Relation) (way : ElementId) : Prop :=
  ∃ member ∈ relation.members,
    member.kind = .way ∧ member.id = way ∧ member.role ∈ ["outer", "inner", ""]

/-- Whether a relation describes a wanted area. -/
def Relation.IsWantedArea (wanted : Tags → Bool) (relation : Relation) : Prop :=
  isAreaRelation relation.tags = true ∧ wanted relation.tags = true

/-- Whether a way is wanted itself, or bounds a wanted area of the map. -/
def Way.IsNeeded (wanted : Tags → Bool) (elements : List Element) (way : Way) : Prop :=
  wanted way.tags = true ∨
    ∃ relation, .relation relation ∈ elements ∧ relation.IsWantedArea wanted ∧
      relation.IsBoundedBy way.id

/-- Whether a node is on a way that is needed. -/
def Node.IsNeeded (wanted : Tags → Bool) (elements : List Element) (node : Node) : Prop :=
  ∃ way, .way way ∈ elements ∧ way.IsNeeded wanted elements ∧ node.id ∈ way.nodes

theorem Boundary.mem_waysIn_iff {roles : List String} {members : List Member} {way : ElementId} :
    way ∈ waysIn roles members ↔
      ∃ member ∈ members, member.kind = .way ∧ member.id = way ∧ member.role ∈ roles := by
  rw [waysIn, List.mem_filterMap]
  apply exists_congr
  intro member
  apply and_congr_right
  intro _
  rw [Option.ite_none_right_eq_some, Option.some.injEq, and_right_comm, and_assoc]

theorem Boundary.mem_ways_iff {relation : Relation} {way : ElementId} :
    way ∈ (Boundary.ofMembers relation.members).ways ↔ relation.IsBoundedBy way := by
  rw [ways, ofMembers, List.mem_append, mem_waysIn_iff, mem_waysIn_iff, Relation.IsBoundedBy,
    ← exists_or]
  apply exists_congr
  intro member
  simp only [List.mem_cons, List.not_mem_nil, or_false]
  grind

theorem boundary?_eq_some_iff {element : Element} {entry : ElementId × Boundary} :
    boundary? wanted element = some entry ↔
      ∃ relation, element = .relation relation ∧ relation.IsWantedArea wanted ∧
        (relation.id, Boundary.ofMembers relation.members) = entry := by
  cases element with
  | node node => simp [boundary?]
  | way way => simp [boundary?]
  | relation relation => simp [boundary?, Relation.IsWantedArea, and_assoc]

theorem surveyedWay?_eq_some_iff {needed : HashSet ElementId} {element : Element} {way : Way} :
    surveyedWay? wanted needed element = some way ↔
      element = .way way ∧ (way.id ∈ needed ∨ wanted way.tags = true) := by
  cases element with
  | node node => simp [surveyedWay?]
  | way other =>
      rw [surveyedWay?, Option.ite_none_right_eq_some, Option.some.injEq, Element.way.injEq,
        Bool.or_eq_true, HashSet.contains_iff_mem, and_comm]
      apply and_congr_right
      rintro rfl
      rfl
  | relation relation => simp [surveyedWay?]

theorem surveyedNode?_eq_some_iff {needed : HashSet ElementId} {element : Element} {node : Node} :
    surveyedNode? needed element = some node ↔ element = .node node ∧ node.id ∈ needed := by
  cases element with
  | node other =>
      rw [surveyedNode?, Option.ite_none_right_eq_some, Option.some.injEq, Element.node.injEq,
        HashSet.contains_iff_mem, and_comm]
      apply and_congr_right
      rintro rfl
      rfl
  | way way => simp [surveyedNode?]
  | relation relation => simp [surveyedNode?]

namespace Survey

theorem mem_boundariesOf_iff {entry : ElementId × Boundary} :
    entry ∈ boundariesOf wanted elements ↔
      ∃ relation, .relation relation ∈ elements ∧ relation.IsWantedArea wanted ∧
        (relation.id, Boundary.ofMembers relation.members) = entry := by
  simp only [boundariesOf, List.mem_filterMap, boundary?_eq_some_iff]
  constructor
  · rintro ⟨_, member, relation, rfl, area, same⟩
    exact ⟨relation, member, area, same⟩
  · rintro ⟨relation, member, area, same⟩
    exact ⟨_, member, relation, rfl, area, same⟩

/-- What a survey looks for among the ways is what is needed. -/
theorem mem_neededWays_or_wanted_iff {way : Way} :
    (way.id ∈ HashSet.ofList ((boundariesOf wanted elements).flatMap fun entry => entry.2.ways) ∨
      wanted way.tags = true) ↔ way.IsNeeded wanted elements := by
  rw [HashSet.mem_ofList, List.contains_iff_mem, List.mem_flatMap, Way.IsNeeded, or_comm]
  apply or_congr_right
  constructor
  · rintro ⟨_, listed, bounds⟩
    obtain ⟨relation, member, area, rfl⟩ := mem_boundariesOf_iff.mp listed
    exact ⟨relation, member, area, Boundary.mem_ways_iff.mp bounds⟩
  · rintro ⟨relation, member, area, bounds⟩
    exact ⟨_, mem_boundariesOf_iff.mpr ⟨relation, member, area, rfl⟩,
      Boundary.mem_ways_iff.mpr bounds⟩

theorem mem_waysOf_iff {way : Way} :
    way ∈ waysOf wanted (boundariesOf wanted elements) elements ↔
      .way way ∈ elements ∧ way.IsNeeded wanted elements := by
  simp only [waysOf, List.mem_filterMap, surveyedWay?_eq_some_iff, mem_neededWays_or_wanted_iff]
  constructor
  · rintro ⟨_, member, rfl, needed⟩
    exact ⟨member, needed⟩
  · rintro ⟨member, needed⟩
    exact ⟨_, member, rfl, needed⟩

/-! ## What a survey keeps -/

/-- A survey that keeps exactly some of the area relations, ways and nodes of a map. -/
structure Keeps (survey : Survey) (elements : List Element) (relations : Relation → Prop)
    (ways : Way → Prop) (nodes : Node → Prop) : Prop where
  boundary_iff {id : ElementId} {boundary : Boundary} :
    survey.boundaries[id]? = some boundary ↔
      ∃ relation, .relation relation ∈ elements ∧ relations relation ∧ relation.id = id ∧
        Boundary.ofMembers relation.members = boundary
  way_iff {id : ElementId} {course : List ElementId} :
    survey.ways[id]? = some course ↔
      ∃ way, .way way ∈ elements ∧ ways way ∧ way.id = id ∧ way.nodes = course
  position_iff {id : ElementId} {position : Coord Float} :
    survey.position? id = some position ↔
      ∃ node, .node node ∈ elements ∧ nodes node ∧ node.id = id ∧ node.position = position

theorem ofParts_ways_eq_some_iff {boundaries : List (ElementId × Boundary)} {ways : List Way}
    {nodes : List Node} (distinct : ways.Pairwise fun first second => first.id ≠ second.id)
    {id : ElementId} {course : List ElementId} :
    (ofParts boundaries ways nodes).ways[id]? = some course ↔
      ∃ way ∈ ways, way.id = id ∧ way.nodes = course := by
  rw [ofParts, hashMap_ofList_eq_some_iff (List.pairwise_map.mpr distinct)]
  simp only [List.mem_map, Prod.mk.injEq]

theorem ofParts_position?_eq_some_iff {boundaries : List (ElementId × Boundary)} {ways : List Way}
    {nodes : List Node} (distinct : nodes.Pairwise fun first second => first.id ≠ second.id)
    {id : ElementId} {position : Coord Float} :
    (ofParts boundaries ways nodes).position? id = some position ↔
      ∃ node ∈ nodes, node.id = id ∧ node.position = position := by
  have keys : (nodes.map fun node => (recordKey node.id, recordOf node.position)).Pairwise
      fun first second => first.1 ≠ second.1 :=
    List.pairwise_map.mpr (distinct.imp fun differ same => differ (recordKey_injective same))
  rw [position?, Option.bind_eq_some_iff]
  simp only [ofParts, treeMap_ofList_eq_some_iff keys, List.mem_map, Prod.mk.injEq]
  constructor
  · rintro ⟨_, ⟨node, member, key, rfl⟩, read⟩
    rw [positionOf?_recordOf] at read
    exact ⟨node, member, recordKey_injective key, Option.some.inj read⟩
  · rintro ⟨node, member, rfl, rfl⟩
    exact ⟨_, ⟨node, member, rfl, rfl⟩, positionOf?_recordOf _⟩

variable {relations : Relation → Prop} {ways : Way → Prop} {nodes : Node → Prop}

/-- Of elements with unique numbers, the lists of a survey keep just what is on them. -/
theorem keeps_ofParts (unique : HasUniqueIds elements)
    {boundaryOf? : Element → Option (ElementId × Boundary)} {wayOf? : Element → Option Way}
    {nodeOf? : Element → Option Node}
    (boundary_iff : ∀ element entry, boundaryOf? element = some entry ↔
      ∃ relation, element = .relation relation ∧ relations relation ∧
        (relation.id, Boundary.ofMembers relation.members) = entry)
    (way_iff : ∀ element way, wayOf? element = some way ↔ element = .way way ∧ ways way)
    (node_iff : ∀ element node, nodeOf? element = some node ↔ element = .node node ∧ nodes node) :
    (ofParts (elements.filterMap boundaryOf?) (elements.filterMap wayOf?)
      (elements.filterMap nodeOf?)).Keeps elements relations ways nodes := by
  constructor
  · intro id boundary
    have distinct : (elements.filterMap boundaryOf?).Pairwise fun first second =>
        first.1 ≠ second.1 := by
      apply unique.distinct .relation
      intro element entry shown
      obtain ⟨relation, rfl, _, rfl⟩ := (boundary_iff element entry).mp shown
      exact ⟨rfl, rfl⟩
    rw [ofParts, hashMap_ofList_eq_some_iff distinct, List.mem_filterMap]
    simp only [boundary_iff, Prod.mk.injEq]
    constructor
    · rintro ⟨_, member, relation, rfl, kept, rfl, rfl⟩
      exact ⟨relation, member, kept, rfl, rfl⟩
    · rintro ⟨relation, member, kept, rfl, rfl⟩
      exact ⟨_, member, relation, rfl, kept, rfl, rfl⟩
  · intro id course
    have distinct : (elements.filterMap wayOf?).Pairwise fun first second =>
        first.id ≠ second.id := by
      apply unique.distinct .way
      intro element way shown
      obtain ⟨rfl, _⟩ := (way_iff element way).mp shown
      exact ⟨rfl, rfl⟩
    rw [ofParts_ways_eq_some_iff distinct]
    simp only [List.mem_filterMap, way_iff]
    constructor
    · rintro ⟨way, ⟨_, member, rfl, kept⟩, same, visits⟩
      exact ⟨way, member, kept, same, visits⟩
    · rintro ⟨way, member, kept, same, visits⟩
      exact ⟨way, ⟨_, member, rfl, kept⟩, same, visits⟩
  · intro id position
    have distinct : (elements.filterMap nodeOf?).Pairwise fun first second =>
        first.id ≠ second.id := by
      apply unique.distinct .node
      intro element node shown
      obtain ⟨rfl, _⟩ := (node_iff element node).mp shown
      exact ⟨rfl, rfl⟩
    rw [ofParts_position?_eq_some_iff distinct]
    simp only [List.mem_filterMap, node_iff]
    constructor
    · rintro ⟨node, ⟨_, member, rfl, kept⟩, same, lies⟩
      exact ⟨node, member, kept, same, lies⟩
    · rintro ⟨node, member, kept, same, lies⟩
      exact ⟨node, ⟨_, member, rfl, kept⟩, same, lies⟩

/-- A survey keeps the boundaries of wanted areas, and what is needed for them or wanted
itself. -/
theorem keeps_ofElements (unique : HasUniqueIds elements) (wanted : Tags → Bool) :
    (ofElements wanted elements).Keeps elements (Relation.IsWantedArea wanted)
      (Way.IsNeeded wanted elements) (Node.IsNeeded wanted elements) := by
  apply keeps_ofParts unique
  · intro element entry
    exact boundary?_eq_some_iff
  · intro element way
    rw [surveyedWay?_eq_some_iff, mem_neededWays_or_wanted_iff]
  · intro element node
    rw [surveyedNode?_eq_some_iff, HashSet.mem_ofList, List.contains_iff_mem, List.mem_flatMap,
      Node.IsNeeded]
    simp only [mem_waysOf_iff, and_assoc]

/-- A survey of all ways, all nodes and the boundaries of all areas. -/
def whole (elements : List Element) : Survey :=
  ofParts (elements.filterMap (boundary? fun _ => true))
    (elements.filterMap fun
      | .way way => some way
      | _ => none)
    (elements.filterMap fun
      | .node node => some node
      | _ => none)

theorem keeps_whole (unique : HasUniqueIds elements) :
    (whole elements).Keeps elements (Relation.IsWantedArea fun _ => true) (fun _ => True)
      (fun _ => True) := by
  apply keeps_ofParts unique
  · intro element entry
    exact boundary?_eq_some_iff
  · intro element way
    cases element <;> simp
  · intro element node
    cases element <;> simp

variable {survey : Survey}

/-- The position of a node is known wherever the node is kept if the map has it. -/
theorem Keeps.position?_eq (keeps : survey.Keeps elements relations ways nodes)
    (unique : HasUniqueIds elements) {id : ElementId}
    (kept : ∀ node, .node node ∈ elements → node.id = id → nodes node) :
    survey.position? id = Osm.position? elements id := by
  apply Option.ext
  intro position
  rw [keeps.position_iff, position?_eq_some_iff unique]
  apply exists_congr
  intro node
  constructor
  · rintro ⟨member, _, same, shown⟩
    exact ⟨member, same, shown⟩
  · rintro ⟨member, same, shown⟩
    exact ⟨member, kept node member same, same, shown⟩

theorem Keeps.vertices?_eq (keeps : survey.Keeps elements relations ways nodes)
    (unique : HasUniqueIds elements) {way : Way} (member : .way way ∈ elements) (kept : ways way)
    (keptNodes : ∀ node, .node node ∈ elements → node.id ∈ way.nodes → nodes node) :
    survey.vertices? way.id = some (way.nodes.filterMap (Osm.position? elements)) := by
  have found : survey.ways[way.id]? = some way.nodes :=
    keeps.way_iff.mpr ⟨way, member, kept, rfl, rfl⟩
  rw [vertices?, found, Option.map_some, trace]
  congr 1
  apply List.filterMap_congr
  intro id visited
  apply keeps.position?_eq unique
  rintro node isNode rfl
  exact keptNodes node isNode visited

theorem Keeps.vertices?_eq_none (keeps : survey.Keeps elements relations ways nodes)
    {id : ElementId} (absent : ∀ way, .way way ∈ elements → way.id ≠ id) :
    survey.vertices? id = none := by
  rw [vertices?, Option.map_eq_none_iff, Option.eq_none_iff_forall_ne_some]
  intro course found
  obtain ⟨way, member, _, same, _⟩ := keeps.way_iff.mp found
  exact absent way member same

/-! ## Nothing is missing -/

/-- A way that is needed has all the vertices that the map knows, in order. -/
theorem vertices?_ofElements (unique : HasUniqueIds elements) {way : Way}
    (member : .way way ∈ elements) (needed : way.IsNeeded wanted elements) :
    (ofElements wanted elements).vertices? way.id =
      some (way.nodes.filterMap (Osm.position? elements)) := by
  apply (keeps_ofElements unique wanted).vertices?_eq unique member needed
  intro node _ visited
  exact ⟨way, member, needed, visited⟩

theorem vertices?_eq_whole (unique : HasUniqueIds elements) {id : ElementId}
    (needed : ∀ way, .way way ∈ elements → way.id = id → way.IsNeeded wanted elements) :
    (ofElements wanted elements).vertices? id = (whole elements).vertices? id := by
  by_cases present : ∃ way, .way way ∈ elements ∧ way.id = id
  · obtain ⟨way, member, rfl⟩ := present
    rw [vertices?_ofElements unique member (needed way member rfl),
      (keeps_whole unique).vertices?_eq unique member trivial fun _ _ _ => trivial]
  · have absent : ∀ way, .way way ∈ elements → way.id ≠ id :=
      fun way member same => present ⟨way, member, same⟩
    rw [(keeps_ofElements unique wanted).vertices?_eq_none absent,
      (keeps_whole unique).vertices?_eq_none absent]

theorem line?_eq_whole (unique : HasUniqueIds elements) {id : ElementId}
    (needed : ∀ way, .way way ∈ elements → way.id = id → way.IsNeeded wanted elements) :
    (ofElements wanted elements).line? id = (whole elements).line? id := by
  rw [line?, vertices?_eq_whole unique needed, ← line?]

theorem area?_eq_whole (unique : HasUniqueIds elements) {id : ElementId}
    (needed : ∀ way, .way way ∈ elements → way.id = id → way.IsNeeded wanted elements) :
    (ofElements wanted elements).area? id = (whole elements).area? id := by
  rw [area?, vertices?_eq_whole unique needed, ← area?]

/-- A way that is wanted is needed, and no other way has its number. -/
theorem isNeeded_of_wanted (unique : HasUniqueIds elements) {way : Way}
    (member : .way way ∈ elements) (isWanted : wanted way.tags = true) :
    ∀ other, .way other ∈ elements → other.id = way.id → other.IsNeeded wanted elements := by
  intro other isOther same
  cases unique.eq_of_id_eq isOther member rfl same
  exact Or.inl isWanted

theorem boundary_eq_whole (unique : HasUniqueIds elements) {relation : Relation}
    (member : .relation relation ∈ elements) (isWanted : wanted relation.tags = true) :
    (ofElements wanted elements).boundaries[relation.id]? =
      (whole elements).boundaries[relation.id]? := by
  apply Option.ext
  intro boundary
  rw [(keeps_ofElements unique wanted).boundary_iff, (keeps_whole unique).boundary_iff]
  apply exists_congr
  intro other
  constructor
  · rintro ⟨isOther, ⟨area, _⟩, same, drawn⟩
    exact ⟨isOther, ⟨area, rfl⟩, same, drawn⟩
  · rintro ⟨isOther, ⟨area, _⟩, same, drawn⟩
    cases unique.eq_of_id_eq isOther member rfl same
    exact ⟨member, ⟨area, isWanted⟩, rfl, drawn⟩

theorem relationArea?_eq_whole (unique : HasUniqueIds elements) {relation : Relation}
    (member : .relation relation ∈ elements) (isWanted : wanted relation.tags = true) :
    (ofElements wanted elements).relationArea? relation.id =
      (whole elements).relationArea? relation.id := by
  rw [relationArea?, relationArea?, ← boundary_eq_whole unique member isWanted]
  cases found : (ofElements wanted elements).boundaries[relation.id]? with
  | none => simp only [Option.bind_eq_bind, Option.bind_none]
  | some boundary =>
      obtain ⟨other, isOther, area, _, rfl⟩ :=
        (keeps_ofElements unique wanted).boundary_iff.mp found
      have pieces (ids : List ElementId)
          (part : ids ⊆ (Boundary.ofMembers other.members).ways) :
          (ofElements wanted elements).piecesOf ids = (whole elements).piecesOf ids := by
        apply List.filterMap_congr
        intro id listed
        apply line?_eq_whole unique
        rintro way _ rfl
        exact Or.inr ⟨other, isOther, area, Boundary.mem_ways_iff.mp (part listed)⟩
      simp only [Option.bind_eq_bind, Option.bind_some]
      rw [pieces _ (List.subset_append_left ..), pieces _ (List.subset_append_right ..)]

/-- A wanted element has the shape that it has in a survey of everything. -/
theorem geometry?_eq_whole (unique : HasUniqueIds elements) {element : Element}
    (member : element ∈ elements) (isWanted : wanted element.tags = true) :
    Survey.geometry? (ofElements wanted elements) element =
      Survey.geometry? (whole elements) element := by
  unfold Survey.geometry?
  cases element with
  | node node => rfl
  | way way =>
      have needed := isNeeded_of_wanted unique member isWanted
      simp only [area?_eq_whole unique needed, line?_eq_whole unique needed]
  | relation relation =>
      simp only [relationArea?_eq_whole unique member isWanted]

theorem place?_eq_whole (unique : HasUniqueIds elements) {element : Element}
    (member : element ∈ elements) :
    (ofElements isPlace elements).place? element = (whole elements).place? element := by
  rw [place?, place?]
  cases found : Classification.ofTags? element.tags with
  | none => simp only [Option.bind_eq_bind, Option.bind_none]
  | some classification =>
      have isWanted : isPlace element.tags = true := by
        rw [isPlace, found]
        rfl
      rw [geometry?_eq_whole unique member isWanted]

/-- What a survey leaves out is never missed.  A way that is a place or bounds one has all its
vertices that are on the map, in order; and lines, areas and places are those of a survey of
everything. -/
theorem ofElements_agrees_with_whole (unique : HasUniqueIds elements) :
    (∀ way, .way way ∈ elements → way.IsNeeded isPlace elements →
        (ofElements isPlace elements).vertices? way.id =
          some (way.nodes.filterMap (Osm.position? elements))) ∧
      (∀ way, .way way ∈ elements → isPlace way.tags = true →
        (ofElements isPlace elements).line? way.id = (whole elements).line? way.id ∧
          (ofElements isPlace elements).area? way.id = (whole elements).area? way.id) ∧
      (∀ relation, .relation relation ∈ elements → isPlace relation.tags = true →
        (ofElements isPlace elements).relationArea? relation.id =
          (whole elements).relationArea? relation.id) ∧
      ∀ element ∈ elements,
        (ofElements isPlace elements).place? element = (whole elements).place? element := by
  refine ⟨fun way => vertices?_ofElements unique, ?_,
    fun relation => relationArea?_eq_whole unique, fun element => place?_eq_whole unique⟩
  intro way member isWanted
  have needed := isNeeded_of_wanted unique member isWanted
  exact ⟨line?_eq_whole unique needed, area?_eq_whole unique needed⟩

/-- The shore of an islet, over a node that is not on the map. -/
def shore : Way :=
  ⟨5, [1, 2, 9, 3], ∅⟩

/-- An islet that two ways without tags bound. -/
def islet : Relation :=
  ⟨7, [⟨.way, 5, "outer"⟩, ⟨.way, 6, ""⟩],
    .ofList [("name", "Swan Islet"), ("place", "islet"), ("type", "multipolygon")]⟩

/-- A road that ends at the shore. -/
def causeway : Way :=
  ⟨8, [3, 4], .ofList [("highway", "residential"), ("name", "Causeway")]⟩

/-- The islet and its road, with ways, relations and nodes in no order. -/
def lagoon : List Element :=
  [.way shore, .relation islet, .way causeway, .node ⟨1, 0, 0, ∅⟩, .node ⟨2, 0, 10000000, ∅⟩,
    .node ⟨3, 10000000, 10000000, ∅⟩, .way ⟨6, [3, 1], ∅⟩, .node ⟨4, 20000000, 10000000, ∅⟩]

theorem ofElements_agrees_with_whole_lagoon :
    HasUniqueIds lagoon ∧ shore.IsNeeded isPlace lagoon ∧
      (ofElements isPlace lagoon).vertices? 5 = some [⟨0, 0⟩, ⟨1, 0⟩, ⟨1, 1⟩] ∧
      (ofElements isPlace lagoon).line? 8 = (whole lagoon).line? 8 ∧
      (ofElements isPlace lagoon).relationArea? 7 = (whole lagoon).relationArea? 7 ∧
      ∀ element ∈ lagoon,
        (ofElements isPlace lagoon).place? element = (whole lagoon).place? element := by
  have unique : HasUniqueIds lagoon := by
    decide
  have isShore : .way shore ∈ lagoon := .head _
  have isIslet : .relation islet ∈ lagoon := .tail _ (.head _)
  have isCauseway : .way causeway ∈ lagoon := .tail _ (.tail _ (.head _))
  have isletIsPlace : isPlace islet.tags = true := by
    decide +kernel
  have isletIsArea : isAreaRelation islet.tags = true := by
    decide +kernel
  have causewayIsPlace : isPlace causeway.tags = true := by
    decide +kernel
  have needed : shore.IsNeeded isPlace lagoon :=
    Or.inr ⟨islet, isIslet, ⟨isletIsArea, isletIsPlace⟩, ⟨.way, 5, "outer"⟩, .head _, rfl, rfl,
      .head _⟩
  have known : shore.nodes.filterMap (Osm.position? lagoon) = [⟨0, 0⟩, ⟨1, 0⟩, ⟨1, 1⟩] := by
    decide +kernel
  obtain ⟨vertices, ways, relations, places⟩ := ofElements_agrees_with_whole unique
  refine ⟨unique, needed, ?_, (ways causeway isCauseway causewayIsPlace).1,
    relations islet isIslet isletIsPlace, places⟩
  rw [← known]
  exact vertices shore isShore needed

end Survey

end Gazetteer.Osm
