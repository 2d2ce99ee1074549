import Mathlib.Data.List.Perm.Subperm
import FlowCache.Library.InsertionMap

/-!
# Doubly linked orders

A doubly linked list whose nodes are found through a map.  Every node is named by
its key, so a pointer is the key of the node it points to.  `Represents` relates the
pointers to the list of keys from the head to the tail; pushing a node to the front
and unlinking a node act on that list as expected, and a walk from the tail along the
`prev` pointers visits it backwards.
-/

universe u

/-- The pointers of one node. -/
structure LinkedNode (Key : Type u) where
  prev : Option Key
  next : Option Key
  deriving DecidableEq, Repr

/-- The nodes with both ends of the list. -/
structure LinkedOrder (Key : Type u) where
  nodes : InsertionMap Key (LinkedNode Key)
  head : Option Key
  tail : Option Key

namespace LinkedOrder

variable {Key : Type u}

/-- No nodes. -/
def empty : LinkedOrder Key := ⟨.empty, none, none⟩

variable [DecidableEq Key]

/-- Rewrite one pointer of a node. -/
def adjust (nodes : InsertionMap Key (LinkedNode Key)) (key : Key)
    (change : LinkedNode Key → LinkedNode Key) : InsertionMap Key (LinkedNode Key) :=
  match nodes.get? key with
  | some node => nodes.insert key (change node)
  | none => nodes

/-- Put a node that is in the map, but in no chain, before the head. -/
def pushFront (list : LinkedOrder Key) (key : Key) : LinkedOrder Key where
  nodes :=
    match list.head with
    | some first =>
        adjust (list.nodes.insert key ⟨none, list.head⟩) first
          fun node => { node with prev := some key }
    | none => list.nodes.insert key ⟨none, list.head⟩
  head := some key
  tail := list.tail <|> some key

/-- Take a node out of the chain; it stays in the map with no pointers. -/
def unlink (list : LinkedOrder Key) (key : Key) (node : LinkedNode Key) :
    LinkedOrder Key :=
  let before : LinkedOrder Key :=
    match node.prev with
    | some prev =>
        { list with
          nodes := adjust list.nodes prev fun other => { other with next := node.next } }
    | none => if list.head = some key then { list with head := node.next } else list
  let after : LinkedOrder Key :=
    match node.next with
    | some next =>
        { before with
          nodes := adjust before.nodes next fun other => { other with prev := node.prev } }
    | none => if before.tail = some key then { before with tail := node.prev } else before
  { after with nodes := after.nodes.insert key ⟨none, none⟩ }

/-- Follow at most `fuel` pointers from a node and list the keys that are visited. -/
def walk (list : LinkedOrder Key) (pointer : LinkedNode Key → Option Key) :
    Nat → Option Key → List Key
  | 0, _ => []
  | _ + 1, none => []
  | fuel + 1, some key =>
      key :: list.walk pointer fuel ((list.nodes.get? key).bind pointer)

/-- The chain consists of the given keys from the head to the tail. -/
structure Chained (list : LinkedOrder Key) (order : List Key) : Prop where
  nodup : order.Nodup
  head : list.head = order.head?
  tail : list.tail = order.getLast?
  linked : ∀ before key after, order = before ++ key :: after →
    list.nodes.get? key = some ⟨before.getLast?, after.head?⟩

/-- The chain consists of the given keys, and every node is in it. -/
structure Represents (list : LinkedOrder Key) (order : List Key) : Prop
    extends list.Chained order where
  tracked : ∀ key, key ∈ list.nodes.keys ↔ key ∈ order

theorem represents_empty : (empty : LinkedOrder Key).Represents [] where
  nodup := List.nodup_nil
  head := rfl
  tail := rfl
  linked := by
    intro before key after impossible
    simp at impossible
  tracked := by
    intro key
    simp [empty]

theorem get?_adjust (nodes : InsertionMap Key (LinkedNode Key)) (key query : Key)
    (change : LinkedNode Key → LinkedNode Key) :
    (adjust nodes key change).get? query =
      if query = key then (nodes.get? query).map change else nodes.get? query := by
  cases found : nodes.get? key with
  | none =>
      simp only [adjust, found]
      split
      · next same => rw [same, found, Option.map_none]
      · rfl
  | some node =>
      simp only [adjust, found, InsertionMap.get?_insert]
      split
      · next same => rw [same, found, Option.map_some]
      · rfl

theorem mem_keys_adjust {nodes : InsertionMap Key (LinkedNode Key)} {key query : Key}
    {change : LinkedNode Key → LinkedNode Key} :
    query ∈ (adjust nodes key change).keys ↔ query ∈ nodes.keys := by
  rw [InsertionMap.mem_keys_iff, InsertionMap.mem_keys_iff, get?_adjust]
  split
  · simp only [Option.map_eq_some_iff]
    constructor
    · rintro ⟨_, node, found, _⟩
      exact ⟨node, found⟩
    · rintro ⟨node, found⟩
      exact ⟨change node, node, found, rfl⟩
  · rfl

variable {list : LinkedOrder Key} {order : List Key}

/-- Both ends are missing exactly when there are no nodes. -/
theorem Represents.ends_none_iff (represents : list.Represents order) :
    (list.head = none ↔ list.nodes.keys = []) ∧
      (list.tail = none ↔ list.nodes.keys = []) := by
  have noNodes : list.nodes.keys = [] ↔ order = [] := by
    rw [List.eq_nil_iff_forall_not_mem, List.eq_nil_iff_forall_not_mem]
    exact forall_congr' fun key => not_congr (represents.tracked key)
  rw [represents.head, represents.tail, noNodes, List.head?_eq_none_iff,
    List.getLast?_eq_none_iff]
  exact ⟨Iff.rfl, Iff.rfl⟩

theorem Represents.size (represents : list.Represents order) :
    list.nodes.size = order.length := by
  have perm : list.nodes.keys.Perm order :=
    (List.perm_ext_iff_of_nodup list.nodes.keys_nodup represents.nodup).mpr
      represents.tracked
  rw [← InsertionMap.keys_length]
  exact perm.length_eq

/-- Pushing a key that is in no chain puts it before the others. -/
theorem Chained.pushFront {key : Key} (chained : list.Chained order)
    (fresh : key ∉ order) : (list.pushFront key).Chained (key :: order) where
  nodup := List.nodup_cons.mpr ⟨fresh, chained.nodup⟩
  head := rfl
  tail := by
    rw [LinkedOrder.pushFront, chained.tail]
    cases order with
    | nil => rfl
    | cons first rest => simp [List.getLast?_cons]
  linked := by
    intro before query after split
    cases before with
    | nil =>
        cases split
        cases order with
        | nil => simp [LinkedOrder.pushFront, chained.head]
        | cons first rest =>
            have different : key ≠ first := fun same => fresh (same ▸ List.mem_cons_self)
            simp [LinkedOrder.pushFront, chained.head, get?_adjust, different]
    | cons first before =>
        obtain ⟨rfl, rest⟩ := List.cons.inj split
        subst rest
        have different : query ≠ key := by
          rintro rfl
          exact fresh (by simp)
        have old := chained.linked before query after rfl
        cases before with
        | nil =>
            simp [LinkedOrder.pushFront, chained.head, get?_adjust,
              InsertionMap.get?_insert, different, old]
        | cons first before =>
            have notFirst : query ≠ first := by
              rintro rfl
              have distinct := chained.nodup
              simp at distinct
            simp [LinkedOrder.pushFront, chained.head, get?_adjust,
              InsertionMap.get?_insert, different, notFirst, old, List.getLast?_cons_cons]

theorem mem_keys_pushFront {key query : Key} :
    query ∈ (list.pushFront key).nodes.keys ↔ query = key ∨ query ∈ list.nodes.keys := by
  cases first : list.head with
  | none => simp [LinkedOrder.pushFront, first, InsertionMap.mem_keys_insert]
  | some key =>
      simp [LinkedOrder.pushFront, first, mem_keys_adjust, InsertionMap.mem_keys_insert]

theorem unlink_head (list : LinkedOrder Key) (key : Key) (node : LinkedNode Key) :
    (list.unlink key node).head =
      if node.prev = none ∧ list.head = some key then node.next else list.head := by
  by_cases atHead : list.head = some key
  all_goals by_cases atTail : list.tail = some key
  all_goals cases prev : node.prev
  all_goals cases next : node.next
  all_goals simp [unlink, prev, next, atHead, atTail]

theorem unlink_tail (list : LinkedOrder Key) (key : Key) (node : LinkedNode Key) :
    (list.unlink key node).tail =
      if node.next = none ∧ list.tail = some key then node.prev else list.tail := by
  by_cases atHead : list.head = some key
  all_goals by_cases atTail : list.tail = some key
  all_goals cases prev : node.prev
  all_goals cases next : node.next
  all_goals simp [unlink, prev, next, atHead, atTail]

theorem unlink_nodes (list : LinkedOrder Key) (key : Key) (node : LinkedNode Key) :
    (list.unlink key node).nodes =
      ((node.next.elim id fun next nodes =>
          adjust nodes next fun other => { other with prev := node.prev })
        ((node.prev.elim id fun prev nodes =>
          adjust nodes prev fun other => { other with next := node.next })
          list.nodes)).insert key ⟨none, none⟩ := by
  by_cases atHead : list.head = some key
  all_goals by_cases atTail : list.tail = some key
  all_goals cases prev : node.prev
  all_goals cases next : node.next
  all_goals simp [unlink, prev, next, atHead, atTail]

theorem mem_keys_unlink {key query : Key} {node : LinkedNode Key}
    (stored : key ∈ list.nodes.keys) :
    query ∈ (list.unlink key node).nodes.keys ↔ query ∈ list.nodes.keys := by
  rw [unlink_nodes, InsertionMap.mem_keys_insert]
  have same : ∀ query, query ∈ ((node.next.elim id fun next nodes =>
      adjust nodes next fun other => { other with prev := node.prev })
        ((node.prev.elim id fun prev nodes =>
          adjust nodes prev fun other => { other with next := node.next })
          list.nodes)).keys ↔ query ∈ list.nodes.keys := by
    intro query
    cases node.prev <;> cases node.next <;> simp [mem_keys_adjust]
  rw [same]
  constructor
  · rintro (rfl | member)
    · exact stored
    · exact member
  · exact .inr

/-- The pointers of the nodes that stay in the chain. -/
theorem unlink_get? (list : LinkedOrder Key) {key query : Key} (node : LinkedNode Key)
    (different : query ≠ key) :
    (list.unlink key node).nodes.get? query =
      (list.nodes.get? query).map fun other =>
        ⟨if node.next = some query then node.prev else other.prev,
          if node.prev = some query then node.next else other.next⟩ := by
  rw [unlink_nodes, InsertionMap.get?_insert_of_ne _ different]
  cases node.prev with
  | none =>
      cases node.next with
      | none => simp
      | some next =>
          simp only [Option.elim, id, get?_adjust]
          split
          · next same => simp [same]
          · next other => simp [Ne.symm other]
  | some prev =>
      cases node.next with
      | none =>
          simp only [Option.elim, id, get?_adjust]
          split
          · next same => simp [same]
          · next other => simp [Ne.symm other]
      | some next =>
          simp only [Option.elim, get?_adjust]
          split <;> split <;> simp_all [eq_comm, Function.comp_def]

/-- A node after the unlinked one: only the first of them gets a new `prev`. -/
theorem Chained.unlink_get?_of_after {key query : Key} {before middle after : List Key}
    (chained : list.Chained (before ++ key :: (middle ++ query :: after))) :
    (list.unlink key ⟨before.getLast?, (middle ++ query :: after).head?⟩).nodes.get?
        query =
      some ⟨(before ++ middle).getLast?, after.head?⟩ := by
  have distinct := chained.nodup
  have old := chained.linked (before ++ key :: middle) query after (by simp)
  have different : query ≠ key := by
    rintro rfl
    simp [List.nodup_append] at distinct
  have notLast : before.getLast? ≠ some query := by
    intro last
    have member := List.mem_of_getLast? last
    exact (List.nodup_append.mp distinct).2.2 query member query (by simp) rfl
  rw [unlink_get? _ _ different, old]
  cases middle with
  | nil => simp [notLast]
  | cons first rest =>
      have notFirst : first ≠ query := by
        rintro rfl
        simp [List.nodup_append] at distinct
      simp [notLast, notFirst, List.getLast?_append, List.getLast?_cons]

/-- A node before the unlinked one: only the last of them gets a new `next`. -/
theorem Chained.unlink_get?_of_before {key query : Key} {before middle after : List Key}
    (chained : list.Chained (before ++ query :: (middle ++ key :: after))) :
    (list.unlink key ⟨(before ++ query :: middle).getLast?, after.head?⟩).nodes.get?
        query =
      some ⟨before.getLast?, (middle ++ after).head?⟩ := by
  have distinct := chained.nodup
  have old := chained.linked before query (middle ++ key :: after) rfl
  have later : query ∉ middle ++ key :: after :=
    (List.nodup_cons.mp (List.nodup_append.mp distinct).2.1).1
  have different : query ≠ key := by
    rintro rfl
    exact later (by simp)
  have notNext : after.head? ≠ some query := by
    intro next
    have member := List.mem_of_head? next
    exact later (by simp [member])
  rw [unlink_get? _ _ different, old]
  cases middle with
  | nil => simp [notNext]
  | cons second rest =>
      have notLast : (second :: rest).getLast? ≠ some query := by
        intro last
        exact later (List.mem_append_left (key :: after) (List.mem_of_getLast? last))
      simp [notNext, notLast, List.getLast?_append]

/-- Unlinking a key of the chain closes the gap it leaves. -/
theorem Chained.unlink {key : Key} {before after : List Key}
    (chained : list.Chained (before ++ key :: after)) :
    (list.unlink key ⟨before.getLast?, after.head?⟩).Chained (before ++ after) where
  nodup := by
    have distinct := chained.nodup
    rw [List.nodup_append, List.nodup_cons] at distinct
    rw [List.nodup_append]
    refine ⟨distinct.1, distinct.2.1.2, ?_⟩
    intro left inBefore right inAfter
    exact distinct.2.2 left inBefore right (.tail _ inAfter)
  head := by
    rw [unlink_head, chained.head]
    cases before with
    | nil => simp
    | cons first rest => simp [List.getLast?_cons]
  tail := by
    rw [unlink_tail, chained.tail]
    cases after with
    | nil => simp
    | cons first rest => simp [List.getLast?_append, List.getLast?_cons]
  linked := by
    intro left query right split
    rcases List.append_eq_append_iff.mp split with
      ⟨middle, rfl, rfl⟩ | ⟨middle, rfl, tail⟩
    · exact chained.unlink_get?_of_after
    · cases middle with
      | nil =>
          rw [List.nil_append] at tail
          subst tail
          rw [List.append_nil] at chained ⊢
          have moved : (list.unlink key
              ⟨left.getLast?, ([] ++ query :: right).head?⟩).nodes.get? query =
              some ⟨(left ++ []).getLast?, right.head?⟩ :=
            chained.unlink_get?_of_after
          rwa [List.append_nil] at moved
      | cons first rest =>
          obtain ⟨rfl, rfl⟩ := List.cons.inj tail
          rw [List.append_assoc] at chained
          exact chained.unlink_get?_of_before

/-- Following `prev` from any node of the chain visits what comes before it, in
reverse, if the fuel allows for that many steps. -/
theorem Chained.walk_prev (chained : list.Chained order) {backwards after : List Key}
    (split : order = backwards.reverse ++ after) {fuel : Nat}
    (enough : backwards.length ≤ fuel) :
    list.walk LinkedNode.prev fuel backwards.head? = backwards := by
  induction backwards generalizing after fuel with
  | nil => cases fuel <;> rfl
  | cons key rest ih =>
      cases fuel with
      | zero => simp at enough
      | succ fuel =>
          have resplit : order = rest.reverse ++ key :: after := by simpa using split
          have node := chained.linked rest.reverse key after resplit
          simp only [List.head?_cons, walk, node, Option.bind_some, List.getLast?_reverse]
          rw [ih resplit (by simpa using enough)]

/-- Following `next` from any node of the chain visits it and what comes after. -/
theorem Chained.walk_next (chained : list.Chained order) {before forwards : List Key}
    (split : order = before ++ forwards) {fuel : Nat}
    (enough : forwards.length ≤ fuel) :
    list.walk LinkedNode.next fuel forwards.head? = forwards := by
  induction forwards generalizing before fuel with
  | nil => cases fuel <;> rfl
  | cons key rest ih =>
      cases fuel with
      | zero => simp at enough
      | succ fuel =>
          have node := chained.linked before key rest split
          simp only [List.head?_cons, walk, node, Option.bind_some]
          have resplit : order = (before ++ [key]) ++ rest := by simpa using split
          rw [ih resplit (by simpa using enough)]

/-- From the tail, `prev` visits every node once, from the last to the first. -/
theorem Represents.walk_tail (represents : list.Represents order) {fuel : Nat}
    (enough : list.nodes.size ≤ fuel) :
    list.walk LinkedNode.prev fuel list.tail = order.reverse := by
  rw [represents.tail, ← List.head?_reverse]
  have split : order = order.reverse.reverse ++ [] := by simp
  apply represents.toChained.walk_prev split
  simpa [represents.size] using enough

/-- From the head, `next` visits every node once, from the first to the last. -/
theorem Represents.walk_head (represents : list.Represents order) {fuel : Nat}
    (enough : list.nodes.size ≤ fuel) :
    list.walk LinkedNode.next fuel list.head = order := by
  rw [represents.head]
  have split : order = [] ++ order := rfl
  apply represents.toChained.walk_next split
  simpa [represents.size] using enough

/-! ## Moving a key to the front and forgetting a key -/

/-- Move a key to the front, with a new node if it has none. -/
def touch (list : LinkedOrder Key) (key : Key) : LinkedOrder Key :=
  match list.nodes.get? key with
  | some node => (list.unlink key node).pushFront key
  | none =>
      pushFront { list with nodes := list.nodes.insert key ⟨none, none⟩ } key

/-- Unlink a key and forget its node. -/
def remove (list : LinkedOrder Key) (key : Key) : LinkedOrder Key :=
  match list.nodes.get? key with
  | some node =>
      let unlinked := list.unlink key node
      { unlinked with nodes := unlinked.nodes.erase key }
  | none => list

theorem Represents.split_of_stored (represents : list.Represents order) {key : Key}
    {node : LinkedNode Key} (stored : list.nodes.get? key = some node) :
    ∃ before after, order = before ++ key :: after ∧ key ∉ before ++ after ∧
      node = ⟨before.getLast?, after.head?⟩ ∧ order.erase key = before ++ after := by
  have member := (represents.tracked key).mp (InsertionMap.mem_keys_of_get? stored)
  obtain ⟨before, after, rfl⟩ := List.append_of_mem member
  have distinct := represents.nodup
  have fresh : key ∉ before := fun inside =>
    (List.nodup_append.mp distinct).2.2 key inside key (by simp) rfl
  have node := represents.linked before key after rfl
  rw [stored] at node
  refine ⟨before, after, rfl, ?_, Option.some.inj node, ?_⟩
  · simp only [List.mem_append, not_or]
    exact ⟨fresh, (List.nodup_cons.mp (List.nodup_append.mp distinct).2.1).1⟩
  · rw [List.erase_append_right _ fresh, List.erase_cons_head]

/-- Touching a key moves it to the front of the order. -/
theorem Represents.touch (represents : list.Represents order) (key : Key) :
    (list.touch key).Represents (key :: order.erase key) := by
  cases stored : list.nodes.get? key with
  | some node =>
      obtain ⟨before, after, rfl, fresh, rfl, erased⟩ :=
        represents.split_of_stored stored
      have known : key ∈ list.nodes.keys := InsertionMap.mem_keys_of_get? stored
      simp only [LinkedOrder.touch, stored, erased]
      refine ⟨represents.toChained.unlink.pushFront fresh, ?_⟩
      intro query
      rw [mem_keys_pushFront, mem_keys_unlink known, represents.tracked]
      simp
      tauto
  | none =>
      have fresh : key ∉ order := by
        rw [← represents.tracked, ← InsertionMap.get?_eq_none_iff]
        exact stored
      simp only [LinkedOrder.touch, stored, List.erase_of_not_mem fresh]
      have chained : ({ list with nodes := list.nodes.insert key ⟨none, none⟩ } :
          LinkedOrder Key).Chained order := by
        refine ⟨represents.nodup, represents.head, represents.tail, ?_⟩
        intro before query after split
        have different : query ≠ key := by
          rintro rfl
          exact fresh (by simp [split])
        rw [InsertionMap.get?_insert_of_ne _ different]
        exact represents.linked before query after split
      refine ⟨chained.pushFront fresh, ?_⟩
      intro query
      rw [mem_keys_pushFront, InsertionMap.mem_keys_insert, represents.tracked]
      simp

/-- Removing a key takes it out of the order. -/
theorem Represents.remove (represents : list.Represents order) (key : Key) :
    (list.remove key).Represents (order.erase key) := by
  cases stored : list.nodes.get? key with
  | some node =>
      obtain ⟨before, after, rfl, fresh, rfl, erased⟩ :=
        represents.split_of_stored stored
      have known : key ∈ list.nodes.keys := InsertionMap.mem_keys_of_get? stored
      simp only [LinkedOrder.remove, stored, erased]
      have chained := represents.toChained.unlink
      refine ⟨⟨chained.nodup, chained.head, chained.tail, ?_⟩, ?_⟩
      · intro left query right split
        have different : query ≠ key := by
          rintro rfl
          exact fresh (by simp [split])
        rw [InsertionMap.get?_erase_of_ne _ different]
        exact chained.linked left query right split
      · intro query
        rw [InsertionMap.mem_keys_erase, mem_keys_unlink known, represents.tracked]
        constructor
        · rintro ⟨different, member⟩
          simpa [different] using member
        · intro member
          refine ⟨?_, ?_⟩
          · rintro rfl
            exact fresh member
          · simp only [List.mem_append, List.mem_cons] at member ⊢
            tauto
  | none =>
      have fresh : key ∉ order := by
        rw [← represents.tracked, ← InsertionMap.get?_eq_none_iff]
        exact stored
      simpa only [LinkedOrder.remove, stored, List.erase_of_not_mem fresh] using represents

end LinkedOrder
