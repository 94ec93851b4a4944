import Mathlib.Data.List.Nodup
import Mathlib.Logic.Function.Basic

namespace ShovelOS
namespace LinkedList

/-!
# Singly linked lists behind one successor field

Several lists have a head each and share the successor field of their nodes.
Code that searches such a list keeps a pointer to the pointer that led it to
the current node, so that it can unlink the node without a special case for
the first one.  A `Link` is what such a pointer designates.

`Holds` says which nodes are on which list.  It is kept by unlinking a node
through the link before it and by pushing a node in front of a list, and a
walk along a list is described by the nodes it passes.
-/

variable {ν : Type*} {α : Type*}

/-- What a pointer to a pointer designates: the head of a list, or the
successor field of a node. -/
inductive Link (ν : Type*) (α : Type*) where
  | head (name : ν)
  | next (node : α)
  deriving DecidableEq, Repr

/-- The heads and the successor field. -/
structure Lists (ν : Type*) (α : Type*) where
  head : ν → α
  next : α → α

namespace Lists

variable [DecidableEq ν] [DecidableEq α]

def read (lists : Lists ν α) : Link ν α → α
  | .head name => lists.head name
  | .next node => lists.next node

def write (lists : Lists ν α) (link : Link ν α) (value : α) : Lists ν α :=
  match link with
  | .head name => { lists with head := Function.update lists.head name value }
  | .next node => { lists with next := Function.update lists.next node value }

theorem read_write (lists : Lists ν α) (link other : Link ν α) (value : α) :
    (lists.write link value).read other = if other = link then value else lists.read other := by
  cases link <;> cases other <;> simp [write, read, Function.update_apply]

theorem next_write_of_ne (lists : Lists ν α) {link : Link ν α} {node : α} (value : α)
    (different : link ≠ .next node) : (lists.write link value).next node = lists.next node := by
  have unchanged := read_write lists link (.next node) value
  rw [if_neg different.symm] at unchanged
  exact unchanged

theorem head_write_of_ne (lists : Lists ν α) {link : Link ν α} {name : ν} (value : α)
    (different : link ≠ .head name) : (lists.write link value).head name = lists.head name := by
  have unchanged := read_write lists link (.head name) value
  rw [if_neg different.symm] at unchanged
  exact unchanged

end Lists

/-! ## Chains -/

/-- The nodes that are passed from `start` until the null pointer. -/
def Chain (null : α) (next : α → α) : α → List α → Prop
  | start, [] => start = null
  | start, node :: rest => start = node ∧ node ≠ null ∧ Chain null next (next node) rest

/-- The link that leads to what follows `nodes`. -/
def linkAfter : Link ν α → List α → Link ν α
  | link, [] => link
  | _link, node :: rest => linkAfter (.next node) rest

theorem linkAfter_next (node : α) (nodes : List α) :
    ∃ last ∈ node :: nodes, linkAfter (Link.next node : Link ν α) nodes = .next last := by
  induction nodes generalizing node with
  | nil => exact ⟨node, List.mem_cons_self, rfl⟩
  | cons second rest inductionHypothesis =>
      rcases inductionHypothesis second with ⟨last, isMember, equal⟩
      exact ⟨last, List.mem_cons_of_mem _ isMember, equal⟩

/-- A link into a list is its first link or belongs to a node before. -/
theorem linkAfter_cases (link : Link ν α) (nodes : List α) :
    linkAfter link nodes = link ∨ ∃ last ∈ nodes, linkAfter link nodes = .next last := by
  cases nodes with
  | nil => exact Or.inl rfl
  | cons node rest => exact Or.inr (linkAfter_next node rest)

variable {null : α}

/-- A chain does not leave a set that holds its start and, with a node, the
successor of the node. -/
theorem Chain.mem_of_closed {next : α → α} {inside : α → Prop}
    (closed : ∀ node, inside node → next node = null ∨ inside (next node)) {start : α}
    {nodes : List α} (chain : Chain null next start nodes) (starts : start = null ∨ inside start) :
    ∀ node ∈ nodes, inside node := by
  induction nodes generalizing start with
  | nil =>
      intro node isMember
      cases isMember
  | cons first rest inductionHypothesis =>
      rcases chain with ⟨rfl, notNull, tail⟩
      have firstInside := starts.resolve_left notNull
      intro node isMember
      rcases List.mem_cons.mp isMember with rfl | later
      · exact firstInside
      · exact inductionHypothesis tail (closed start firstInside) node later

theorem Chain.congr {next other : α → α} {start : α} {nodes : List α}
    (same : ∀ node ∈ nodes, other node = next node) (chain : Chain null next start nodes) :
    Chain null other start nodes := by
  induction nodes generalizing start with
  | nil => exact chain
  | cons node rest inductionHypothesis =>
      rcases chain with ⟨first, notNull, tail⟩
      refine ⟨first, notNull, ?_⟩
      rw [same node List.mem_cons_self]
      exact inductionHypothesis (fun other isMember => same other (List.mem_cons_of_mem _ isMember))
        tail

theorem Chain.start_eq_null_iff {next : α → α} {start : α} {nodes : List α}
    (chain : Chain null next start nodes) : start = null ↔ nodes = [] := by
  cases nodes with
  | nil => exact ⟨fun _isNull => rfl, fun _empty => chain⟩
  | cons node rest =>
      rw [chain.1]
      exact ⟨fun isNull => absurd isNull chain.2.1, fun empty => by cases empty⟩

theorem Chain.ne_null {next : α → α} {start node : α} {nodes : List α}
    (chain : Chain null next start nodes) (isMember : node ∈ nodes) : node ≠ null := by
  induction nodes generalizing start with
  | nil => cases isMember
  | cons first rest inductionHypothesis =>
      rcases List.mem_cons.mp isMember with same | later
      · rw [same]
        exact chain.2.1
      · exact inductionHypothesis chain.2.2 later

/-- The part of a chain behind some of its nodes starts at the link after
them. -/
theorem Chain.after {lists : Lists ν α} {link : Link ν α} {before rest : List α}
    (chain : Chain null lists.next (lists.read link) (before ++ rest)) :
    Chain null lists.next (lists.read (linkAfter link before)) rest := by
  induction before generalizing link with
  | nil => exact chain
  | cons node before inductionHypothesis =>
      have tail : Chain null lists.next (lists.read (.next node)) (before ++ rest) := chain.2.2
      exact inductionHypothesis tail

theorem mem_of_split {nodes before rest : List α} {node : α}
    (split : nodes = before ++ node :: rest) :
    node ∈ nodes := by
  rw [split]
  exact List.mem_append_right _ List.mem_cons_self

/-! ## Lists that share no node -/

/-- Which nodes are on which list, in order.  No node is on two lists or
twice on one. -/
structure Holds (null : α) (lists : Lists ν α) (nodes : ν → List α) : Prop where
  chain : ∀ name, Chain null lists.next (lists.head name) (nodes name)
  nodup : ∀ name, (nodes name).Nodup
  apart : ∀ name other, name ≠ other → ∀ node ∈ nodes name, node ∉ nodes other

variable {lists : Lists ν α} {nodes : ν → List α}

theorem Holds.name_unique (holds : Holds null lists nodes) {name other : ν} {node : α}
    (isMember : node ∈ nodes name) (alsoMember : node ∈ nodes other) : name = other := by
  by_contra different
  exact holds.apart name other different node isMember alsoMember

/-- The link after some nodes of a list leads to the next one. -/
theorem Holds.read_linkAfter (holds : Holds null lists nodes) {name : ν} {before rest : List α}
    {node : α} (split : nodes name = before ++ node :: rest) :
    lists.read (linkAfter (.head name) before) = node := by
  have chain : Chain null lists.next (lists.read (.head name)) (nodes name) := holds.chain name
  rw [split] at chain
  exact chain.after.1

/-- Only the heads and the successors of the nodes matter. -/
theorem Holds.congr (holds : Holds null lists nodes) {other : Lists ν α}
    (sameHead : ∀ name, other.head name = lists.head name)
    (sameNext : ∀ name, ∀ node ∈ nodes name, other.next node = lists.next node) :
    Holds null other nodes where
  chain := by
    intro name
    rw [sameHead]
    exact (holds.chain name).congr (sameNext name)
  nodup := holds.nodup
  apart := holds.apart

/-! ## Unlinking and pushing -/

variable [DecidableEq ν]

/-- The nodes after `node` has gone from one list to the front of another. -/
def moved (nodes : ν → List α) (name : ν) (others : List α) (node : α) (target : ν) :
    ν → List α :=
  let unlinked := Function.update nodes name others
  Function.update unlinked target (node :: unlinked target)

theorem moved_target {name target : ν} (others : List α) (node : α) (different : target ≠ name) :
    moved nodes name others node target target = node :: nodes target := by
  unfold moved
  rw [Function.update_self, Function.update_of_ne different]

/-- Moving a node changes no other node's list. -/
theorem mem_moved_of_ne {name target other : ν} {before rest : List α} {node later : α}
    (split : nodes name = before ++ node :: rest) (different : later ≠ node) :
    later ∈ moved nodes name (before ++ rest) node target other ↔ later ∈ nodes other := by
  have unlinked : ∀ list, later ∈ Function.update nodes name (before ++ rest) list ↔
      later ∈ nodes list := by
    intro list
    by_cases same : list = name
    · subst same
      rw [Function.update_self, split]
      simp [different]
    · rw [Function.update_of_ne same]
  unfold moved
  by_cases isTarget : other = target
  · subst isTarget
    rw [Function.update_self, List.mem_cons, unlinked]
    exact or_iff_right different
  · rw [Function.update_of_ne isTarget, unlinked]

theorem mem_moved_self (name target : ν) (others : List α) (node : α) :
    node ∈ moved nodes name others node target target := by
  unfold moved
  rw [Function.update_self]
  exact List.mem_cons_self

/-- A list that starts a chain of nodes on no other list. -/
theorem Holds.fill (holds : Holds null lists nodes) {other : Lists ν α} {name : ν} {fresh : List α}
    (chain : Chain null other.next (other.head name) fresh) (nodup : fresh.Nodup)
    (sameHead : ∀ list, list ≠ name → other.head list = lists.head list)
    (sameNext : ∀ list, ∀ node ∈ nodes list, other.next node = lists.next node)
    (apart : ∀ list, ∀ node ∈ nodes list, node ∉ fresh) :
    Holds null other (Function.update nodes name fresh) where
  chain := by
    intro list
    by_cases same : list = name
    · subst same
      rw [Function.update_self]
      exact chain
    · rw [Function.update_of_ne same, sameHead list same]
      exact (holds.chain list).congr (sameNext list)
  nodup := by
    intro list
    by_cases same : list = name
    · subst same
      rw [Function.update_self]
      exact nodup
    · rw [Function.update_of_ne same]
      exact holds.nodup list
  apart := by
    intro first second different node isMember alsoMember
    by_cases firstIs : first = name
    · have secondIsNot : second ≠ name := fun secondIs => different (firstIs.trans secondIs.symm)
      subst firstIs
      rw [Function.update_self] at isMember
      rw [Function.update_of_ne secondIsNot] at alsoMember
      exact apart second node alsoMember isMember
    · rw [Function.update_of_ne firstIs] at isMember
      by_cases secondIs : second = name
      · subst secondIs
        rw [Function.update_self] at alsoMember
        exact apart first node isMember alsoMember
      · rw [Function.update_of_ne secondIs] at alsoMember
        exact holds.apart first second different node isMember alsoMember

variable [DecidableEq α]

/-- Storing a node's successor at the link before the node takes the node
out of the chain. -/
theorem Chain.unlink {lists : Lists ν α} {link : Link ν α} {before rest : List α} {node : α}
    (chain : Chain null lists.next (lists.read link) (before ++ node :: rest))
    (nodup : (before ++ node :: rest).Nodup)
    (outside : ∀ last, link = .next last → last ∉ before ++ node :: rest) :
    Chain null (lists.write (linkAfter link before) (lists.next node)).next
      ((lists.write (linkAfter link before) (lists.next node)).read link) (before ++ rest) := by
  induction before generalizing link with
  | nil =>
      have tail : Chain null lists.next (lists.next node) rest := chain.2.2
      rw [linkAfter, Lists.read_write, if_pos rfl]
      apply tail.congr
      intro later isMember
      apply Lists.next_write_of_ne
      intro same
      exact outside later same (List.mem_cons_of_mem _ isMember)
  | cons first before inductionHypothesis =>
      have firstApart : first ∉ before ++ node :: rest := (List.nodup_cons.mp nodup).1
      have tail : Chain null lists.next (lists.read (.next first)) (before ++ node :: rest) :=
        chain.2.2
      have shorter := inductionHypothesis tail (List.nodup_cons.mp nodup).2
        (fun last same => by cases same; exact firstApart)
      have kept : link ≠ linkAfter (Link.next first) before := by
        rcases linkAfter_next (ν := ν) first before with ⟨last, isMember, equal⟩
        rw [equal]
        intro same
        apply outside last same
        rcases List.mem_cons.mp isMember with isFirst | later
        · exact List.mem_cons.mpr (Or.inl isFirst)
        · exact List.mem_cons_of_mem _ (List.mem_append_left _ later)
      refine ⟨?_, chain.2.1, shorter⟩
      rw [linkAfter, Lists.read_write, if_neg kept]
      exact chain.1

theorem Holds.unlink (holds : Holds null lists nodes) {name : ν} {before rest : List α} {node : α}
    (split : nodes name = before ++ node :: rest) :
    Holds null (lists.write (linkAfter (.head name) before) (lists.next node))
      (Function.update nodes name (before ++ rest)) where
  chain := by
    intro other
    by_cases same : other = name
    · subst same
      rw [Function.update_self]
      have chain : Chain null lists.next (lists.read (.head other)) (nodes other) :=
        holds.chain other
      have nodup := holds.nodup other
      rw [split] at chain nodup
      exact chain.unlink nodup (fun last impossible => by cases impossible)
    · rw [Function.update_of_ne same]
      rcases linkAfter_cases (Link.head name : Link ν α) before with isHead |
        ⟨last, isMember, isNext⟩
      · rw [isHead, Lists.head_write_of_ne _ _ (fun equal => same (Link.head.inj equal).symm)]
        exact (holds.chain other).congr (fun _later _isMember => rfl)
      · have onList : last ∈ nodes name := by
          rw [split]
          exact List.mem_append_left _ isMember
        rw [isNext]
        apply (holds.chain other).congr
        intro later laterMember
        apply Lists.next_write_of_ne
        intro equal
        rw [← Link.next.inj equal] at laterMember
        exact same (holds.name_unique laterMember onList)
  nodup := by
    intro other
    by_cases same : other = name
    · subst same
      rw [Function.update_self]
      have nodup := holds.nodup other
      rw [split] at nodup
      exact nodup.sublist (List.Sublist.append_left (List.sublist_cons_self _ _) _)
    · rw [Function.update_of_ne same]
      exact holds.nodup other
  apart := by
    have smaller : ∀ other, ∀ later ∈ Function.update nodes name (before ++ rest) other,
        later ∈ nodes other := by
      intro other later isMember
      by_cases same : other = name
      · subst same
        rw [Function.update_self] at isMember
        rw [split]
        exact (List.Sublist.append_left (List.sublist_cons_self _ _) _).subset isMember
      · rw [Function.update_of_ne same] at isMember
        exact isMember
    intro first second different later isMember alsoMember
    exact holds.apart first second different later (smaller first later isMember)
      (smaller second later alsoMember)

/-- Pushing a node that is on no list. -/
theorem Holds.push (holds : Holds null lists nodes) {node : α} (name : ν) (notNull : node ≠ null)
    (fresh : ∀ other, node ∉ nodes other) :
    Holds null ((lists.write (.next node) (lists.head name)).write (.head name) node)
      (Function.update nodes name (node :: nodes name)) where
  chain := by
    have kept : ∀ other, Chain null (Function.update lists.next node (lists.head name))
        (lists.head other) (nodes other) := by
      intro other
      apply (holds.chain other).congr
      intro later isMember
      apply Function.update_of_ne
      intro equal
      exact fresh other (equal ▸ isMember)
    intro other
    by_cases same : other = name
    · subst same
      simp only [Lists.write, Function.update_self]
      refine ⟨rfl, notNull, ?_⟩
      rw [Function.update_self]
      exact kept other
    · simp only [Lists.write, Function.update_of_ne same]
      exact kept other
  nodup := by
    intro other
    by_cases same : other = name
    · subst same
      rw [Function.update_self]
      exact List.nodup_cons.mpr ⟨fresh other, holds.nodup other⟩
    · rw [Function.update_of_ne same]
      exact holds.nodup other
  apart := by
    intro first second different later isMember alsoMember
    by_cases firstIs : first = name
    · have secondIsNot : second ≠ name := fun secondIs => different (firstIs.trans secondIs.symm)
      subst firstIs
      rw [Function.update_self] at isMember
      rw [Function.update_of_ne secondIsNot] at alsoMember
      rcases List.mem_cons.mp isMember with isNew | old
      · exact fresh second (isNew ▸ alsoMember)
      · exact holds.apart first second different later old alsoMember
    · rw [Function.update_of_ne firstIs] at isMember
      by_cases secondIs : second = name
      · subst secondIs
        rw [Function.update_self] at alsoMember
        rcases List.mem_cons.mp alsoMember with isNew | old
        · exact fresh first (isNew ▸ isMember)
        · exact holds.apart first second different later isMember old
      · rw [Function.update_of_ne secondIs] at alsoMember
        exact holds.apart first second different later isMember alsoMember

/-! ## Moving a node -/

/-- Unlink the node behind a link and push it onto a list. -/
def Lists.moveTo (lists : Lists ν α) (link : Link ν α) (node : α) (target : ν) : Lists ν α :=
  let unlinked := lists.write link (lists.next node)
  (unlinked.write (.next node) (unlinked.head target)).write (.head target) node

theorem Holds.moveTo (holds : Holds null lists nodes) {name : ν} {before rest : List α} {node : α}
    (split : nodes name = before ++ node :: rest) (target : ν) :
    Holds null (lists.moveTo (linkAfter (.head name) before) node target)
      (moved nodes name (before ++ rest) node target) := by
  have onList : node ∈ nodes name := mem_of_split split
  have absent : node ∉ before ++ rest := by
    have nodup := holds.nodup name
    rw [split] at nodup
    exact (List.nodup_cons.mp (List.nodup_middle.mp nodup)).1
  apply (holds.unlink split).push target ((holds.chain name).ne_null onList)
  intro other isMember
  by_cases same : other = name
  · rw [same, Function.update_self] at isMember
    exact absent isMember
  · rw [Function.update_of_ne same] at isMember
    exact same (holds.name_unique isMember onList)

/-! ## Walks -/

/-- Follow a list until a node for which the test has an answer.  The link
that led there comes with the answer.  The test itself may have no value, and
so has a walk that is longer than its fuel. -/
def walk {β : Type*} (null : α) (next : α → α) (test : α → Option (Option β)) :
    Nat → Link ν α → α → Option (Link ν α × Option β)
  | 0, _link, _node => none
  | fuel + 1, link, node =>
      if node = null then some (link, none)
      else
        match test node with
        | none => none
        | some (some answer) => some (link, some answer)
        | some none => walk null next test fuel (.next node) (next node)

omit [DecidableEq ν] in
/-- A walk stops at the first node of the chain with an answer, or passes all
of them, or comes to a node for which the test has no value. -/
theorem walk_cases {β : Type*} {next : α → α} (test : α → Option (Option β)) {fuel : Nat}
    (link : Link ν α) {start : α} {nodes : List α} (chain : Chain null next start nodes)
    (enough : nodes.length < fuel) :
    (∃ before node rest found, nodes = before ++ node :: rest ∧
      (∀ passed ∈ before, test passed = some none) ∧ test node = some (some found) ∧
      walk null next test fuel link start = some (linkAfter link before, some found)) ∨
    ((∀ passed ∈ nodes, test passed = some none) ∧
      walk null next test fuel link start = some (linkAfter link nodes, none)) ∨
    ((∃ node ∈ nodes, test node = none) ∧ walk null next test fuel link start = none) := by
  induction nodes generalizing fuel link start with
  | nil =>
      rcases Nat.exists_eq_succ_of_ne_zero (Nat.ne_of_gt enough) with ⟨less, rfl⟩
      refine Or.inr (Or.inl ⟨fun passed isMember => (by cases isMember), ?_⟩)
      have isNull : start = null := chain
      rw [walk, if_pos isNull, linkAfter]
  | cons first nodes inductionHypothesis =>
      rcases Nat.exists_eq_succ_of_ne_zero
        (Nat.ne_of_gt (Nat.lt_of_le_of_lt (Nat.zero_le _) enough))
        with ⟨less, rfl⟩
      rcases chain with ⟨rfl, notNull, tail⟩
      rw [walk, if_neg notNull]
      have orFirst : ∀ {passing : List α}, test start = some none →
          (∀ passed ∈ passing, test passed = some none) →
          ∀ passed ∈ start :: passing, test passed = some none := by
        intro passing outcome others passed isMember
        rcases List.mem_cons.mp isMember with isFirst | later
        · rw [isFirst]
          exact outcome
        · exact others passed later
      cases outcome : test start with
      | none => exact Or.inr (Or.inr ⟨⟨start, List.mem_cons_self, outcome⟩, rfl⟩)
      | some answer =>
          cases answer with
          | some found =>
              exact Or.inl
                ⟨[], start, nodes, found, rfl, fun passed isMember => (by cases isMember),
                outcome, rfl⟩
          | none =>
              dsimp only
              rcases inductionHypothesis (.next start) tail (Nat.lt_of_succ_lt_succ enough) with
                ⟨before, node, rest, found, split, passed, isFound, walked⟩ | ⟨passed, walked⟩ |
                ⟨⟨node, isMember, stuck⟩, walked⟩
              · exact Or.inl ⟨start :: before, node, rest, found, by rw [split]; rfl,
                  orFirst outcome passed, isFound, walked⟩
              · exact Or.inr (Or.inl ⟨orFirst outcome passed, walked⟩)
              · exact Or.inr (Or.inr ⟨⟨node, List.mem_cons_of_mem _ isMember, stuck⟩, walked⟩)

end LinkedList
end ShovelOS
