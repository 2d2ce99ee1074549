import Mathlib.Data.Set.Basic
import Mathlib.Logic.ExistsUnique

/-!
# Consumer groups

The members of a topic are divided into groups, and every message is handed to exactly
one member of each group.  Which one it is, is not for the members to decide, so a member
is sure of a message only if no other member is in its group.
-/

namespace ConsumerGroups

universe u v

variable {Member : Type u} {Group : Type v} {members : Set Member} {group : Member → Group}

/-- The members a message is handed to: exactly one of each group. -/
def HandsToOne (members : Set Member) (group : Member → Group) (handed : Set Member) :
    Prop :=
  ∀ member ∈ members, ∃! receiver,
    receiver ∈ members ∧ receiver ∈ handed ∧ group receiver = group member

/-- A member of a group is alone in it. -/
def Alone (members : Set Member) (group : Member → Group) (member : Member) : Prop :=
  ∀ other ∈ members, group other = group member → other = member

theorem HandsToOne.mem_of_alone {handed : Set Member} (hands : HandsToOne members group handed)
    {member : Member} (here : member ∈ members) (alone : Alone members group member) :
    member ∈ handed := by
  obtain ⟨receiver, ⟨inside, received, same⟩, -⟩ := hands member here
  rw [← alone receiver inside same]
  exact received

/-- Any choice of one member for each group may be what is handed a message. -/
theorem handsToOne_of_choice {choice : Group → Member}
    (chosen : ∀ member ∈ members, choice (group member) ∈ members ∧
      group (choice (group member)) = group member) :
    HandsToOne members group { member | choice (group member) = member } := by
  intro member here
  obtain ⟨inside, same⟩ := chosen member here
  refine ⟨choice (group member), ⟨inside, ?_, same⟩, ?_⟩
  · rw [Set.mem_ofPred_eq, same]
  · rintro other ⟨-, received, sameGroup⟩
    rw [Set.mem_ofPred_eq, sameGroup] at received
    exact received.symm

/-- A member that shares its group may miss a message. -/
theorem exists_handsToOne_without {member other : Member} (there : other ∈ members)
    (same : group other = group member) (different : other ≠ member) :
    ∃ handed, HandsToOne members group handed ∧ member ∉ handed := by
  classical
  -- the group of `member` gets `other`, every other group any of its members
  have inhabited : ∀ name, ∃ receiver, (∃ some ∈ members, group some = name) →
      receiver ∈ members ∧ group receiver = name := by
    intro name
    by_cases empty : ∃ some ∈ members, group some = name
    · obtain ⟨receiver, inside, named⟩ := empty
      exact ⟨receiver, fun _ => ⟨inside, named⟩⟩
    · exact ⟨member, fun nonempty => absurd nonempty empty⟩
  choose receiver chosen using inhabited
  refine ⟨_, @handsToOne_of_choice _ _ _ _
    (fun name => if name = group member then other else receiver name) ?_, ?_⟩
  · intro next here
    by_cases shared : group next = group member
    · rw [if_pos shared]
      exact ⟨there, same.trans shared.symm⟩
    · rw [if_neg shared]
      exact chosen (group next) ⟨next, here, rfl⟩
  · rw [Set.mem_ofPred_eq, if_pos rfl]
    exact different

/-- A member is handed every message exactly if it is alone in its group. -/
theorem always_handed_iff {member : Member} (here : member ∈ members) :
    (∀ handed, HandsToOne members group handed → member ∈ handed) ↔
      Alone members group member := by
  constructor
  · intro always other there same
    by_contra different
    obtain ⟨handed, hands, missed⟩ := exists_handsToOne_without there same different
    exact missed (always handed hands)
  · intro alone handed hands
    exact hands.mem_of_alone here alone

end ConsumerGroups
