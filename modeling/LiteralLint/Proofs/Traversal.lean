import Mathlib.Data.List.Induction
import Mathlib.Data.List.Nodup
import LiteralLint.Proofs.Numbering

/-!
# The traversal

A walk knows nothing but a list of events that wait. Entering a node puts the events of entering its
children in front, and behind these the event of leaving the node. All the same a walk is the
recursion over the children: a node is entered, the nodes below it are traversed one child after the
other, and the node is left.

The list that waits also tells which nodes are open, that is, entered and not yet left: they are
those that it will leave. Behind an event about a node there wait the exits of its ancestors, nearest
first, and no other exits. Both hold when a walk starts and are kept by each event, so they hold at
every moment of the walk.

## Main definitions

* `Arena.traversal`: the traversal from a number on, by recursion over the children.
* `Arena.waitingAfter`: what one step does to the events that wait.
* `Arena.Midway`: what holds between two events of a walk.
* `Arena.Traverses`: what the events of a tree are.

## Main results

* `Arena.take_walkFrom`: a bound on the steps cuts a walk off and changes nothing before that.
* `Arena.eventsFrom_eq_traversal`: recursion over a tree and over the numbers of its arena agree.
* `Arena.Midway.step`, `Arena.exists_midway`: the invariant of a walk, for one event and for all.
* `Arena.traverses_walk`: **a walk is the recursive traversal**.
-/

namespace LiteralLint

namespace Arena

open LiteralLint.Tree

variable {α : Type}

/-! ## Kinds of events -/

/-- The number of the node that an event is about. -/
def Event.number : Event → Nat
  | .enter i => i
  | .leave i => i

/-- Whether a node is entered at an event. -/
def Event.isEnter : Event → Bool
  | .enter _ => true
  | .leave _ => false

mutual

/-- The nodes of a tree are entered in the order of their numbers. -/
theorem filter_isEnter_eventsFrom (n : Nat) : ∀ t : Tree α,
    (t.eventsFrom n).filter Event.isEnter = (List.range' n t.size).map .enter
  | .node _ cs => by
      have hlast : [Event.leave n].filter Event.isEnter = [] := rfl
      rw [eventsFrom, Tree.size, List.filter_cons_of_pos rfl, List.filter_append, hlast,
        List.append_nil, filter_isEnter_forestEventsFrom (n + 1) cs, List.range'_succ, List.map_cons]

theorem filter_isEnter_forestEventsFrom (n : Nat) : ∀ cs : List (Tree α),
    (forestEventsFrom n cs).filter Event.isEnter = (List.range' n (forestSize cs)).map .enter
  | [] => rfl
  | t :: rest => by
      rw [forestEventsFrom, forestSize, List.filter_append, filter_isEnter_eventsFrom n t,
        filter_isEnter_forestEventsFrom (n + t.size) rest, ← List.range'_append_1, List.map_append]

end

mutual

/-- The nodes of a tree are left in post-order. -/
theorem filter_not_isEnter_eventsFrom (n : Nat) : ∀ t : Tree α,
    (t.eventsFrom n).filter (fun e => !e.isEnter) = (t.postorderFrom n).map .leave
  | .node _ cs => by
      have hfirst : ∀ es, (Event.enter n :: es).filter (fun e => !e.isEnter) =
          es.filter (fun e => !e.isEnter) := fun _ => rfl
      have hlast : [Event.leave n].filter (fun e => !e.isEnter) = [.leave n] := rfl
      rw [eventsFrom, postorderFrom, hfirst, List.filter_append, hlast,
        filter_not_isEnter_forestEventsFrom (n + 1) cs, List.map_append, List.map_singleton]

theorem filter_not_isEnter_forestEventsFrom (n : Nat) : ∀ cs : List (Tree α),
    (forestEventsFrom n cs).filter (fun e => !e.isEnter) = (forestPostorderFrom n cs).map .leave
  | [] => rfl
  | t :: rest => by
      rw [forestEventsFrom, forestPostorderFrom, List.filter_append,
        filter_not_isEnter_eventsFrom n t, filter_not_isEnter_forestEventsFrom (n + t.size) rest,
        List.map_append]

end

/-! ## One step and many -/

/-- The events that wait after one has come, where those behind it waited already. -/
def waitingAfter (a : Arena α) (rest : List Event) : Event → List Event
  | .leave _ => rest
  | .enter i => (a.childrenOf i).map .enter ++ .leave i :: rest

theorem walkFrom_nil (a : Arena α) (steps : Nat) : a.walkFrom steps [] = [] := by
  cases steps <;> rfl

theorem walkFrom_cons (a : Arena α) (steps : Nat) (e : Event) (rest : List Event) :
    a.walkFrom (steps + 1) (e :: rest) = e :: a.walkFrom steps (a.waitingAfter rest e) := by
  cases e <;> rfl

/-- An event that comes was the first that waited. -/
theorem exists_of_walkFrom_eq_cons {a : Arena α} {steps : Nat} {waiting rest : List Event}
    {e : Event} (h : a.walkFrom steps waiting = e :: rest) :
    ∃ steps' behind, waiting = e :: behind ∧
      a.walkFrom steps' (a.waitingAfter behind e) = rest := by
  cases steps with
  | zero => cases h
  | succ steps =>
      cases waiting with
      | nil => cases h
      | cons f behind =>
          rw [walkFrom_cons] at h
          obtain ⟨rfl, hrest⟩ := List.cons.inj h
          exact ⟨steps, behind, rfl, hrest⟩

/-- A bound on the steps cuts a walk off and changes nothing before that. -/
theorem take_walkFrom (a : Arena α) (steps more : Nat) (waiting : List Event) :
    (a.walkFrom (steps + more) waiting).take steps = a.walkFrom steps waiting := by
  induction steps generalizing waiting with
  | zero => rfl
  | succ steps ih =>
      cases waiting with
      | nil => rw [walkFrom_nil, walkFrom_nil, List.take_nil]
      | cons e rest =>
          rw [Nat.add_right_comm, walkFrom_cons, walkFrom_cons, List.take_succ_cons, ih]

/-- The events of a tree come within any bound that is large enough, and none comes after them. -/
theorem walkFrom_root (t : Tree α) (more : Nat) :
    (ofTree t).walkFrom (2 * t.size + more) [.enter 0] = (ofTree t).walk := by
  rw [walkFrom_tree t (holds_ofTree t), walkFrom_nil, List.append_nil, walk_ofTree]

theorem walkFrom_eq_take (t : Tree α) (steps : Nat) :
    (ofTree t).walkFrom steps [.enter 0] = (ofTree t).walk.take steps := by
  rw [← walkFrom_root t steps, Nat.add_comm, take_walkFrom]

/-! ## Recursion over the children -/

/-- The traversal from a number on: its node is entered, the traversals from its children follow in
order, and the node is left. -/
def traversal (t : Tree α) (i : Nat) : List Event :=
  .enter i :: (((ofTree t).childrenOf i).attach.flatMap (fun ⟨j, _⟩ => traversal t j) ++ [.leave i])
termination_by t.size - i
decreasing_by
  -- a child has a greater number, which is still one of the tree
  have hlt := parent?_lt (mem_childrenOf_iff.1 ‹j ∈ (ofTree t).childrenOf i›)
  omega

theorem traversal_eq (t : Tree α) (i : Nat) : traversal t i =
    .enter i :: (((ofTree t).childrenOf i).flatMap (traversal t) ++ [.leave i]) := by
  rw [traversal]
  simp

mutual

/-- Recursion over a subtree and over the numbers from its own on agree. -/
theorem eventsFrom_eq_traversal {t : Tree α} (s : Tree α) {parent : Option Nat} {n : Nat}
    (h : Holds (ofTree t) parent n s) : s.eventsFrom n = traversal t n := by
  cases s with
  | node l cs =>
      rw [eventsFrom, traversal_eq, h.2.2.1, forestEventsFrom_eq_traversal cs h.2.2.2]

theorem forestEventsFrom_eq_traversal {t : Tree α} (cs : List (Tree α)) {parent n : Nat}
    (h : HoldsForest (ofTree t) parent n cs) :
    forestEventsFrom n cs = (rootsFrom n cs).flatMap (traversal t) := by
  cases cs with
  | nil => rfl
  | cons c rest =>
      rw [forestEventsFrom, rootsFrom, List.flatMap_cons, eventsFrom_eq_traversal c h.1,
        forestEventsFrom_eq_traversal rest h.2]

end

theorem walk_eq_traversal (t : Tree α) : (ofTree t).walk = traversal t 0 := by
  rw [walk_ofTree, eventsFrom_eq_traversal t (holds_ofTree t)]

/-! ## Every event once -/

theorem filter_isEnter_walk (t : Tree α) :
    (ofTree t).walk.filter Event.isEnter = (List.range t.size).map .enter := by
  rw [walk_ofTree, filter_isEnter_eventsFrom, List.range_eq_range']

theorem filter_not_isEnter_walk (t : Tree α) :
    (ofTree t).walk.filter (fun e => !e.isEnter) = (t.postorderFrom 0).map .leave := by
  rw [walk_ofTree, filter_not_isEnter_eventsFrom]

/-- The events of a walk are those of entering its nodes and those of leaving them. -/
theorem walk_perm (t : Tree α) :
    ((List.range t.size).map Event.enter ++ (t.postorderFrom 0).map Event.leave).Perm
      (ofTree t).walk := by
  rw [← filter_isEnter_walk, ← filter_not_isEnter_walk]
  exact List.filter_append_perm _ _

theorem length_walk (t : Tree α) : (ofTree t).walk.length = 2 * t.size := by
  have hleft := (postorderFrom_perm 0 t).length_eq
  rw [List.length_range'] at hleft
  rw [← (walk_perm t).length_eq, List.length_append, List.length_map, List.length_map, hleft,
    List.length_range]
  omega

theorem nodup_walk (t : Tree α) : (ofTree t).walk.Nodup := by
  refine (walk_perm t).nodup_iff.1 (List.nodup_append.2 ⟨?_, ?_, ?_⟩)
  · exact List.nodup_range.map fun _ _ h => Event.enter.inj h
  · have hpost := (postorderFrom_perm 0 t).nodup_iff.2 List.nodup_range'
    exact hpost.map fun _ _ h => Event.leave.inj h
  · intro e henter f hleave
    obtain ⟨i, -, rfl⟩ := List.mem_map.1 henter
    obtain ⟨j, -, rfl⟩ := List.mem_map.1 hleave
    exact Event.noConfusion

/-! ## Between two events -/

/-- The numbers of the nodes that some waiting events leave, in order. -/
def toLeave (waiting : List Event) : List Nat :=
  waiting.filterMap fun
    | .enter _ => none
    | .leave i => some i

theorem mem_toLeave {waiting : List Event} {j : Nat} :
    j ∈ toLeave waiting ↔ .leave j ∈ waiting := by
  unfold toLeave
  rw [List.mem_filterMap]
  constructor
  · rintro ⟨_ | _, he, h⟩ <;> cases h
    exact he
  · intro h
    exact ⟨_, h, rfl⟩

/-- Events of entering nodes leave none. -/
theorem toLeave_enters (is : List Nat) (rest : List Event) :
    toLeave (is.map .enter ++ rest) = toLeave rest := by
  induction is with
  | nil => rfl
  | cons i is ih => exact ih

/-- Behind each event that waits there wait the exits of its node's ancestors, nearest first, and no
other exits. -/
def Nested (a : Arena α) : List Event → Prop
  | [] => True
  | e :: rest => toLeave rest = a.ancestors e.number ∧ Nested a rest

/-- Children may wait in front of the exit of their parent. -/
theorem Nested.enters {a : Arena α} {i : Nat} {rest : List Event} (h : Nested a (.leave i :: rest))
    {is : List Nat} (his : ∀ c ∈ is, a.ancestors c = i :: a.ancestors i) :
    Nested a (is.map .enter ++ .leave i :: rest) := by
  induction is with
  | nil => exact h
  | cons c is ih =>
      refine ⟨?_, ih fun d hd => his d (List.mem_cons_of_mem c hd)⟩
      calc toLeave (is.map .enter ++ .leave i :: rest)
          = i :: toLeave rest := toLeave_enters is _
        _ = i :: a.ancestors i := by rw [h.1]; rfl
        _ = a.ancestors c := (his c List.mem_cons_self).symm

/-- What holds between two events of a walk: the past events, and those that wait. -/
structure Midway (a : Arena α) (past waiting : List Event) : Prop where
  nested : Nested a waiting
  /-- What is left was entered. -/
  entered : ∀ j, .leave j ∈ past → .enter j ∈ past
  /-- The nodes that are open are those that wait to be left. -/
  opened : ∀ j, (.enter j ∈ past ∧ .leave j ∉ past) ↔ .leave j ∈ waiting

theorem midway_start (t : Tree α) : Midway (ofTree t) [] [.enter 0] where
  nested := ⟨rfl, trivial⟩
  entered _ h := nomatch h
  opened _ := by simp

/-- **An event keeps what holds between events**, if it did not come before. -/
theorem Midway.step {t : Tree α} {past rest : List Event} {e : Event}
    (h : Midway (ofTree t) past (e :: rest)) (hnew : e ∉ past) :
    Midway (ofTree t) (past ++ [e]) ((ofTree t).waitingAfter rest e) := by
  cases e with
  | enter i =>
      have hchildren : ∀ c ∈ (ofTree t).childrenOf i,
          (ofTree t).ancestors c = i :: (ofTree t).ancestors i :=
        fun c hc => ancestors_of_parent (mem_childrenOf_iff.1 hc)
      have hclosed : .leave i ∉ past := fun hleft => hnew (h.entered i hleft)
      refine
        { nested := Nested.enters ⟨h.nested.1, h.nested.2⟩ hchildren
          entered := ?_
          opened := ?_ }
      · intro j hj
        have hj : .leave j ∈ past := by simpa using hj
        exact List.mem_append_left _ (h.entered j hj)
      · intro j
        have hold := h.opened j
        by_cases hji : j = i
        · subst hji
          simp [waitingAfter, hclosed]
        · simpa [waitingAfter, hji] using hold
  | leave i =>
      -- the exits that wait behind this one are its ancestors', and no node is its own ancestor
      have honce : .leave i ∉ rest := by
        intro hwaits
        rw [← mem_toLeave, h.nested.1] at hwaits
        exact Nat.lt_irrefl i (lt_of_mem_ancestors hwaits)
      refine
        { nested := h.nested.2
          entered := ?_
          opened := ?_ }
      · intro j hj
        have hentered : .enter i ∈ past := ((h.opened i).2 List.mem_cons_self).1
        rcases List.mem_append.1 hj with hj | hj
        · exact List.mem_append_left _ (h.entered j hj)
        · cases List.mem_singleton.1 hj
          exact List.mem_append_left _ hentered
      · intro j
        have hold := h.opened j
        by_cases hji : j = i
        · subst hji
          simp [waitingAfter, honce]
        · simpa [waitingAfter, hji] using hold

/-- **At every moment of a walk** the invariant holds, and what is still to come is what the events
that wait yield. -/
theorem exists_midway {t : Tree α} {past rest : List Event} (h : (ofTree t).walk = past ++ rest) :
    ∃ steps waiting, (ofTree t).walkFrom steps waiting = rest ∧ Midway (ofTree t) past waiting := by
  induction past using List.reverseRecOn generalizing rest with
  | nil => exact ⟨_, _, (walkFrom_root t 0).trans h, midway_start t⟩
  | append_singleton past e ih =>
      rw [List.append_assoc] at h
      obtain ⟨steps, waiting, hcoming, hmidway⟩ := ih h
      obtain ⟨steps', behind, rfl, hrest⟩ := exists_of_walkFrom_eq_cons hcoming
      have hnew : e ∉ past := by
        have hnodup := nodup_walk t
        rw [h] at hnodup
        exact fun hpast => (List.nodup_append.1 hnodup).2.2 e hpast e List.mem_cons_self rfl
      exact ⟨steps', _, hrest, hmidway.step hnew⟩

/-- The nodes that are open when a node is left are this node and its ancestors. -/
theorem opened_iff {t : Tree α} {past rest : List Event} {i : Nat}
    (h : (ofTree t).walk = past ++ .leave i :: rest) (j : Nat) :
    (.enter j ∈ past ∧ .leave j ∉ past) ↔ j = i ∨ j ∈ (ofTree t).ancestors i := by
  obtain ⟨steps, waiting, hcoming, hmidway⟩ := exists_midway h
  obtain ⟨-, behind, rfl, -⟩ := exists_of_walkFrom_eq_cons hcoming
  have hbehind : toLeave behind = (ofTree t).ancestors i := hmidway.nested.1
  rw [hmidway.opened, List.mem_cons, Event.leave.injEq, ← hbehind, mem_toLeave]

/-! ## The walk -/

/-- What the events of a tree are. -/
structure Traverses (t : Tree α) (events : List Event) : Prop where
  recursive : events = traversal t 0
  length : events.length = 2 * t.size
  /-- A step yields an event as long as one waits, and no bound on the steps yields other events or
  more of them. So after the last one nothing waits. -/
  terminates : ∀ steps, (ofTree t).walkFrom steps [.enter 0] = events.take steps
  enters : events.filter Event.isEnter = (List.range t.size).map .enter
  leaves : events.filter (fun e => !e.isEnter) = (t.postorderFrom 0).map .leave
  /-- When a node is left, this node and its ancestors are those entered and not yet left. -/
  opened : ∀ past i rest, events = past ++ .leave i :: rest →
    ∀ j, (.enter j ∈ past ∧ .leave j ∉ past) ↔ j = i ∨ j ∈ (ofTree t).ancestors i

/-- **A walk is the recursive traversal.** It ends after two events per node; the nodes are entered
in the order of their numbers and left in post-order; and whenever one is left, the open nodes are
this one and its ancestors. -/
theorem traverses_walk (t : Tree α) : Traverses t (ofTree t).walk where
  recursive := walk_eq_traversal t
  length := length_walk t
  terminates := walkFrom_eq_take t
  enters := filter_isEnter_walk t
  leaves := filter_not_isEnter_walk t
  opened _ _ _ h := opened_iff h

example : (ofTree (.node 'a' [.node 'b' [.node 'c' []], .node 'd' []])).walk =
    [.enter 0, .enter 1, .enter 2, .leave 2, .leave 1, .enter 3, .leave 3, .leave 0] := by decide

end Arena

end LiteralLint
