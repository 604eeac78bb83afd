import Mathlib.Data.List.Nodup
import Mathlib.Data.List.Monad
import Mathlib.Logic.Relation
import Mathlib.Tactic.Common

/-!
# Bounded walks with a visited set

A depth-first walk over the children of a node that keeps the nodes it has visited, and flags a node
that it meets twice and a node below the last level. A walk without flags visits the nodes of a tree
in preorder.
-/

namespace GenSubnet.Library

variable {O S : Type}

structure Walked (O S : Type) where
  /-- The latest first. -/
  visited : List O := []
  maxDepth : Nat := 0
  cycle : Bool := false
  tooDeep : Bool := false
  totals : S

def Walked.flagged (s : Walked O S) : Bool := s.cycle || s.tooDeep

section
variable (children : O → List O)

/-- The nodes of as many levels, in the order of the walk. -/
def preorder : Nat → O → List O
  | 0, _ => []
  | room + 1, o => o :: (children o).flatMap (preorder room)

/-- There are no nodes below as many levels. -/
def Shallow : Nat → O → Prop
  | 0, _ => False
  | room + 1, o => ∀ child ∈ children o, Shallow room child

/-- The nodes below a node are a tree of as many levels. -/
structure Tree (room : Nat) (o : O) : Prop where
  shallow : Shallow children room o
  nodup : (preorder children room o).Nodup

/-- The walk has room for as many levels, the one of the node included. A walk that stops goes no
further once it is flagged. -/
def walk [DecidableEq O] (visit : O → S → Option S) (stops : Bool) :
    Nat → Nat → O → Walked O S → Option (Walked O S)
  | room, depth, node, s =>
      if stops && s.flagged then some s
      else if node ∈ s.visited then some { s with cycle := true }
      else
        match room with
        | 0 => some { s with tooDeep := true }
        | room + 1 => do
            let totals ← visit node s.totals
            (children node).foldlM
              (fun s child => walk visit stops room (depth + 1) child s)
              { s with visited := node :: s.visited, maxDepth := max s.maxDepth depth, totals }

end

/-! ## Levels -/

section
variable {children : O → List O}

theorem Shallow.succ {room : Nat} {o : O} (shallow : Shallow children room o) :
    Shallow children (room + 1) o := by
  induction room generalizing o with
  | zero => exact shallow.elim
  | succ room ih => exact fun child member => ih (shallow child member)

theorem Shallow.mono {room more : Nat} {o : O} (shallow : Shallow children room o)
    (le : room ≤ more) : Shallow children more o := by
  induction le with
  | refl => exact shallow
  | step _ ih => exact ih.succ

theorem Shallow.preorder_eq {room more : Nat} {o : O} (shallow : Shallow children room o)
    (le : room ≤ more) : preorder children more o = preorder children room o := by
  induction room generalizing o more with
  | zero => exact shallow.elim
  | succ room ih =>
      obtain ⟨more, rfl⟩ : ∃ m, more = m + 1 := ⟨more - 1, by omega⟩
      simp only [preorder, List.cons.injEq, true_and]
      exact List.flatMap_congr fun child member => ih (shallow child member) (by omega)

theorem mem_preorder_self {room : Nat} {o : O} (shallow : Shallow children room o) :
    o ∈ preorder children room o := by
  cases room with
  | zero => exact shallow.elim
  | succ room => exact List.mem_cons_self

theorem mem_tail_of_mem_children {room : Nat} {o p child : O} (shallow : Shallow children room o)
    (member : p ∈ preorder children room o) (is : child ∈ children p) :
    child ∈ (preorder children room o).tail := by
  induction room generalizing o with
  | zero => exact shallow.elim
  | succ room ih =>
      simp only [preorder, List.tail_cons, List.mem_cons, List.mem_flatMap] at member ⊢
      rcases member with rfl | ⟨q, below, inside⟩
      · exact ⟨child, is, mem_preorder_self (shallow child is)⟩
      · exact ⟨q, below, List.mem_of_mem_tail (ih (shallow q below) inside)⟩

theorem Tree.root_not_child {room : Nat} {o p : O} (tree : Tree children room o)
    (member : p ∈ preorder children room o) : o ∉ children p := by
  intro is
  have below := mem_tail_of_mem_children tree.shallow member is
  cases room with
  | zero => exact tree.shallow
  | succ room => exact (List.nodup_cons.mp tree.nodup).1 below

theorem Tree.reaches {room : Nat} {o p : O} (tree : Tree children room o)
    (below : Relation.ReflTransGen (fun parent child => child ∈ children parent) o p) :
    p ∈ preorder children room o := by
  induction below with
  | refl => exact mem_preorder_self tree.shallow
  | tail _ edge ih => exact List.mem_of_mem_tail (mem_tail_of_mem_children tree.shallow ih edge)

theorem Tree.mono {room more : Nat} {o : O} (tree : Tree children room o) (le : room ≤ more) :
    Tree children more o :=
  ⟨tree.shallow.mono le, by rw [tree.shallow.preorder_eq le]; exact tree.nodup⟩

variable {others : O → List O}

theorem Shallow.congr {room : Nat} {o : O} (shallow : Shallow children room o)
    (same : ∀ p ∈ preorder children room o, others p = children p) : Shallow others room o := by
  induction room generalizing o with
  | zero => exact shallow
  | succ room ih =>
      intro child member
      have here : others o = children o := same o (mem_preorder_self shallow)
      rw [here] at member
      have below (p : O) (inside : p ∈ preorder children room child) : others p = children p :=
        same p (List.mem_cons_of_mem _ (List.mem_flatMap.mpr ⟨child, member, inside⟩))
      exact ih (shallow child member) below

theorem preorder_congr {room : Nat} {o : O}
    (same : ∀ p ∈ preorder children room o, others p = children p) :
    preorder others room o = preorder children room o := by
  induction room generalizing o with
  | zero => rfl
  | succ room ih =>
      have here : others o = children o := same o List.mem_cons_self
      simp only [preorder, here, List.cons.injEq, true_and]
      refine List.flatMap_congr fun child member => ih fun p inside => ?_
      exact same p (List.mem_cons_of_mem _ (List.mem_flatMap.mpr ⟨child, member, inside⟩))

end

/-! ## Walks without flags -/

variable {visit : O → S → Option S}

theorem foldlM_flagged {step : Walked O S → O → Option (Walked O S)}
    (keeps : ∀ {node : O} {s t : Walked O S}, step s node = some t → s.flagged = true → t.flagged = true)
    {nodes : List O} {s t : Walked O S} (walked : nodes.foldlM step s = some t)
    (flagged : s.flagged = true) : t.flagged = true := by
  induction nodes generalizing s with
  | nil =>
      cases walked
      exact flagged
  | cons node rest ih =>
      rw [List.foldlM_cons] at walked
      obtain ⟨m, first, walked⟩ := Option.bind_eq_some_iff.mp walked
      exact ih walked (keeps first flagged)

/-- What a walk without flags has gone over. -/
structure Covers (visit : O → S → Option S) (nodes : List O) (s t : Walked O S) : Prop where
  visited : t.visited = nodes.reverse ++ s.visited
  fresh : ∀ node ∈ nodes, node ∉ s.visited
  nodup : nodes.Nodup
  totals : nodes.foldlM (fun totals node => visit node totals) s.totals = some t.totals

theorem Covers.nil {s t : Walked O S} (visited : t.visited = s.visited) (totals : t.totals = s.totals) :
    Covers visit [] s t :=
  ⟨by simpa using visited, by simp, .nil, by simp [totals]⟩

theorem Covers.append {first rest : List O} {s m t : Walked O S} (before : Covers visit first s m)
    (after : Covers visit rest m t) : Covers visit (first ++ rest) s t where
  visited := by simp [after.visited, before.visited]
  fresh node member := by
    rcases List.mem_append.mp member with inFirst | inRest
    · exact before.fresh node inFirst
    · have fresh := after.fresh node inRest
      rw [before.visited] at fresh
      exact fun old => fresh (List.mem_append_right _ old)
  nodup := by
    refine List.nodup_append.mpr ⟨before.nodup, after.nodup, fun a inFirst b inRest same => ?_⟩
    subst same
    have fresh := after.fresh a inRest
    rw [before.visited] at fresh
    exact fresh (List.mem_append_left _ (List.mem_reverse.mpr inFirst))
  totals := by
    rw [List.foldlM_append, before.totals]
    exact after.totals

section
variable [DecidableEq O] {children : O → List O} {stops : Bool}

theorem walk_flagged {room depth : Nat} {o : O} {s t : Walked O S}
    (walked : walk children visit stops room depth o s = some t) (flagged : s.flagged = true) :
    t.flagged = true := by
  induction room generalizing depth o s t with
  | zero =>
      simp only [walk] at walked
      split at walked
      · cases walked
        exact flagged
      · split at walked <;> cases walked <;> simp [Walked.flagged]
  | succ room ih =>
      simp only [walk] at walked
      split at walked
      · cases walked
        exact flagged
      · split at walked
        · cases walked
          simp [Walked.flagged]
        · obtain ⟨totals, -, walked⟩ := Option.bind_eq_some_iff.mp walked
          exact foldlM_flagged (fun step flagged => ih step flagged) walked flagged

theorem foldlM_keeps {α : Type} {kept : S → Prop} {step : S → α → Option S} {items : List α} {s t : S}
    (folded : items.foldlM step s = some t)
    (keeps : ∀ {s t : S} {item : α}, step s item = some t → kept s → kept t) (start : kept s) : kept t := by
  induction items generalizing s with
  | nil =>
      cases folded
      exact start
  | cons item rest ih =>
      rw [List.foldlM_cons] at folded
      obtain ⟨m, first, folded⟩ := Option.bind_eq_some_iff.mp folded
      exact ih folded (keeps first start)

theorem walk_enters_once {room depth last : Nat} {o : O} {s t : Walked O S}
    (walked : walk children visit stops room depth o s = some t) (levels : depth + room ≤ last + 1)
    (once : s.visited.Nodup ∧ s.maxDepth ≤ last) : t.visited.Nodup ∧ t.maxDepth ≤ last := by
  induction room generalizing depth o s t with
  | zero =>
      simp only [walk] at walked
      split at walked
      · cases walked
        exact once
      · split at walked <;> cases walked <;> exact once
  | succ room ih =>
      simp only [walk] at walked
      split at walked
      · cases walked
        exact once
      · split at walked
        · cases walked
          exact once
        · rename_i unseen
          obtain ⟨totals, -, walked⟩ := Option.bind_eq_some_iff.mp walked
          apply foldlM_keeps walked
          · intro s t child step once
            exact ih step (by omega) once
          · refine ⟨List.nodup_cons.mpr ⟨unseen, once.1⟩, ?_⟩
            have deeper := once.2
            simp only
            omega

theorem walk_covers {room depth : Nat} {o : O} {s t : Walked O S}
    (walked : walk children visit stops room depth o s = some t) (clear : t.flagged = false) :
    Shallow children room o ∧ Covers visit (preorder children room o) s t ∧
      s.maxDepth ≤ t.maxDepth ∧
      ∀ levels, t.maxDepth < depth + levels → Shallow children levels o := by
  have unflagged : s.flagged = false := by
    by_contra flagged
    have := walk_flagged walked (by simpa using flagged)
    simp [this] at clear
  induction room generalizing depth o s t with
  | zero =>
      simp only [walk, unflagged, Bool.and_false, Bool.false_eq_true, if_false] at walked
      split at walked <;> cases walked <;> simp [Walked.flagged] at clear
  | succ room ih =>
      simp only [walk, unflagged, Bool.and_false, Bool.false_eq_true, if_false] at walked
      split at walked
      · cases walked
        simp [Walked.flagged] at clear
      · rename_i unseen
        obtain ⟨totals, visits, walked⟩ := Option.bind_eq_some_iff.mp walked
        have run (nodes : List O) (s : Walked O S) (unflagged : s.flagged = false)
            (walked : nodes.foldlM (fun s child => walk children visit stops room (depth + 1) child s) s =
              some t) :
            (∀ child ∈ nodes, Shallow children room child) ∧
              Covers visit (nodes.flatMap (preorder children room)) s t ∧ s.maxDepth ≤ t.maxDepth ∧
              ∀ levels, t.maxDepth < depth + 1 + levels → ∀ child ∈ nodes, Shallow children levels child := by
          induction nodes generalizing s with
          | nil =>
              cases walked
              exact ⟨by simp, .nil rfl rfl, Nat.le_refl _, by simp⟩
          | cons node rest inner =>
              rw [List.foldlM_cons] at walked
              obtain ⟨m, first, walked⟩ := Option.bind_eq_some_iff.mp walked
              have middle : m.flagged = false := by
                by_contra flagged
                have kept := foldlM_flagged (fun step flagged => walk_flagged step flagged) walked
                  (by simpa using flagged)
                simp [kept] at clear
              obtain ⟨shallow, covers, grows, above⟩ := ih first middle unflagged
              obtain ⟨shallows, more, further, belows⟩ := inner m middle walked
              refine ⟨?_, covers.append more, Nat.le_trans grows further, ?_⟩
              · rintro child (- | member)
                · exact shallow
                · exact shallows child (by assumption)
              · intro levels short child member
                rcases List.mem_cons.mp member with rfl | member
                · exact above levels (by omega)
                · exact belows levels short child member
        obtain ⟨shallow, covers, grows, above⟩ := run (children o)
          { s with visited := o :: s.visited, maxDepth := max s.maxDepth depth, totals } unflagged walked
        simp only at grows
        have here : Covers visit [o] s
            { s with visited := o :: s.visited, maxDepth := max s.maxDepth depth, totals } :=
          ⟨rfl, by simpa using unseen, List.nodup_singleton o, by simp [visits]⟩
        refine ⟨shallow, here.append covers, by omega, ?_⟩
        intro levels short
        cases levels with
        | zero => omega
        | succ levels => exact fun child member => above levels (by omega) child member

theorem walk_of_tree {room depth : Nat} {o : O} {s : Walked O S} {totals : S}
    (unflagged : s.flagged = false) (shallow : Shallow children room o)
    (nodup : (preorder children room o).Nodup)
    (fresh : ∀ node ∈ preorder children room o, node ∉ s.visited)
    (folds : (preorder children room o).foldlM (fun totals node => visit node totals) s.totals =
      some totals) :
    ∃ t, walk children visit stops room depth o s = some t ∧ t.flagged = false ∧
      t.totals = totals ∧ t.visited = (preorder children room o).reverse ++ s.visited := by
  induction room generalizing depth o s totals with
  | zero => exact shallow.elim
  | succ room ih =>
      have unseen : o ∉ s.visited := fresh o List.mem_cons_self
      simp only [preorder, List.foldlM_cons] at folds
      obtain ⟨here, visits, folds⟩ := Option.bind_eq_some_iff.mp folds
      have run (nodes : List O) (s : Walked O S) (unflagged : s.flagged = false)
          (shallow : ∀ child ∈ nodes, Shallow children room child)
          (nodup : (nodes.flatMap (preorder children room)).Nodup)
          (fresh : ∀ node ∈ nodes.flatMap (preorder children room), node ∉ s.visited)
          (folds : (nodes.flatMap (preorder children room)).foldlM
            (fun totals node => visit node totals) s.totals = some totals) :
          ∃ t, nodes.foldlM (fun s child => walk children visit stops room (depth + 1) child s) s = some t ∧
            t.flagged = false ∧ t.totals = totals ∧
            t.visited = (nodes.flatMap (preorder children room)).reverse ++ s.visited := by
        induction nodes generalizing s with
        | nil =>
            refine ⟨s, rfl, unflagged, ?_, rfl⟩
            simpa using folds
        | cons node rest inner =>
            rw [List.flatMap_cons] at nodup fresh folds
            rw [List.foldlM_append] at folds
            obtain ⟨part, first, folds⟩ := Option.bind_eq_some_iff.mp folds
            obtain ⟨nodupFirst, nodupRest, apart⟩ := List.nodup_append.mp nodup
            obtain ⟨m, walked, clear, totalsIs, visitedIs⟩ :=
              ih unflagged (shallow node List.mem_cons_self) nodupFirst
                (fun p member => fresh p (List.mem_append_left _ member)) first
            have freshRest (p : O) (member : p ∈ rest.flatMap (preorder children room)) :
                p ∉ m.visited := by
              rw [visitedIs, List.mem_append, List.mem_reverse]
              rintro (inFirst | old)
              · exact apart p inFirst p member rfl
              · exact fresh p (List.mem_append_right _ member) old
            obtain ⟨t, walkedRest, clearRest, totalsRest, visitedRest⟩ :=
              inner m clear (fun child member => shallow child (List.mem_cons_of_mem _ member)) nodupRest
                freshRest (by rw [totalsIs]; exact folds)
            refine ⟨t, ?_, clearRest, totalsRest, ?_⟩
            · rw [List.foldlM_cons, walked]
              exact walkedRest
            · simp [visitedRest, visitedIs]
      obtain ⟨outside, nodupBelow⟩ := List.nodup_cons.mp nodup
      have freshBelow (p : O) (member : p ∈ (children o).flatMap (preorder children room)) :
          p ∉ o :: s.visited := by
        rw [List.mem_cons]
        rintro (rfl | old)
        · exact outside member
        · exact fresh p (List.mem_cons_of_mem _ member) old
      obtain ⟨t, walked, clear, totalsIs, visitedIs⟩ :=
        run (children o)
          { s with visited := o :: s.visited, maxDepth := max s.maxDepth depth, totals := here }
          unflagged shallow nodupBelow freshBelow folds
      refine ⟨t, ?_, clear, totalsIs, ?_⟩
      · simp only [walk, unflagged, Bool.and_false, Bool.false_eq_true, if_false, unseen, visits]
        exact walked
      · simp [preorder, visitedIs]

theorem walk_clear_iff {room : Nat} {o : O} {totals after : S} :
    (∃ t, walk children visit stops room 0 o { totals } = some t ∧ t.flagged = false ∧
        t.totals = after) ↔
      Tree children room o ∧
        (preorder children room o).foldlM (fun totals node => visit node totals) totals = some after := by
  constructor
  · rintro ⟨t, walked, clear, rfl⟩
    obtain ⟨shallow, covers, -, -⟩ := walk_covers walked clear
    exact ⟨⟨shallow, covers.nodup⟩, covers.totals⟩
  · rintro ⟨tree, folds⟩
    have walks : ∃ t, walk children visit stops room 0 o { totals } = some t ∧ t.flagged = false ∧
        t.totals = after ∧ t.visited = (preorder children room o).reverse ++ [] :=
      walk_of_tree rfl tree.shallow tree.nodup (by simp) folds
    obtain ⟨t, walked, clear, totalsIs, -⟩ := walks
    exact ⟨t, walked, clear, totalsIs⟩

end

end GenSubnet.Library
