import OwlStructure.Collections.Count

/-!
Strongly connected components of a graph on the numbers below `n`, by one depth-first search. A
node is given its index when it is opened and stays on the stack until its component is complete;
its low link is the least index that the search has seen it lead to among the nodes on the stack.
A component is complete when its first node is left with its own index for low link.
-/
namespace OwlStructure

/-- A graph on the numbers below `n`, by the successors of each. -/
structure Digraph (n : Nat) where
  successors : Vector (List (Fin n)) n

/-- What the search has found. Components are in the order in which they were completed. -/
structure ComponentSearch (n : Nat) where
  index : Vector (Option Nat) n
  lowLink : Vector Nat n
  onStack : Vector Bool n
  stack : List (Fin n)
  nextIndex : Nat
  components : List (List (Fin n))

/-- A node that the search has not left, with the successors that it has still to look at. -/
abbrev SearchFrame (n : Nat) := Fin n × List (Fin n)

/-- Cuts a stack just below a node. -/
def popThrough [DecidableEq α] (v : α) : List α → List α × List α
  | [] => ([], [])
  | w :: rest =>
    if w = v then ([w], rest)
    else
      let (popped, left) := popThrough v rest
      (w :: popped, left)

namespace ComponentSearch

variable {n : Nat}

def initial : ComponentSearch n :=
  ⟨.replicate n none, .replicate n 0, .replicate n false, [], 0, []⟩

/-- Gives a node the next index and puts it on the stack. -/
def enter (s : ComponentSearch n) (v : Fin n) : ComponentSearch n :=
  { s with
    index := s.index.set v (some s.nextIndex)
    lowLink := s.lowLink.set v s.nextIndex
    onStack := s.onStack.set v true
    stack := v :: s.stack
    nextIndex := s.nextIndex + 1 }

/-- Records that a node leads to a node with a given index. -/
def lower (s : ComponentSearch n) (v : Fin n) (i : Nat) : ComponentSearch n :=
  { s with lowLink := s.lowLink.set v (min s.lowLink[v] i) }

/-- Takes the marks from some nodes. -/
def unmark (marks : Vector Bool n) (nodes : List (Fin n)) : Vector Bool n :=
  nodes.foldl (fun m (w : Fin n) => m.set w false) marks

/-- Takes a node's component from the stack if the node is the first of it. -/
def complete (s : ComponentSearch n) (v : Fin n) : ComponentSearch n :=
  if s.index[v] = some s.lowLink[v] then
    let (component, stack) := popThrough v s.stack
    { s with
      onStack := unmark s.onStack component
      stack
      components := s.components ++ [component] }
  else s

/-- Leaves a node: what it leads to, the node that led to it leads to as well. -/
def leave (s : ComponentSearch n) (v : Fin n) (parent : Option (Fin n)) : ComponentSearch n :=
  match parent with
  | some u => (s.lower u s.lowLink[v]).complete v
  | none => s.complete v

/-- How many nodes have no index. -/
def unopened (s : ComponentSearch n) : Nat :=
  (List.finRange n).countP fun v => s.index[v].isNone

theorem unopened_enter_lt {s : ComponentSearch n} {v : Fin n} (h : s.index[v] = none) :
    (s.enter v).unopened < s.unopened := by
  refine countP_lt_of_imp (a := v) (fun x _ hx => ?_) (List.mem_finRange v) (by simp [h]) ?_
  · by_cases hv : v = x
    · subst hv
      simp [h]
    · have hne : v.val ≠ x.val := fun e => hv (Fin.ext e)
      simpa [enter, Vector.getElem_set, hne] using hx
  · simp [enter]

theorem index_complete (s : ComponentSearch n) (v : Fin n) : (s.complete v).index = s.index := by
  unfold complete
  split <;> rfl

theorem index_leave (s : ComponentSearch n) (v : Fin n) (parent : Option (Fin n)) :
    (s.leave v parent).index = s.index := by
  unfold leave
  split
  · exact index_complete ..
  · exact index_complete ..

theorem unopened_leave (s : ComponentSearch n) (v : Fin n) (parent : Option (Fin n)) :
    (s.leave v parent).unopened = s.unopened := by
  unfold unopened
  rw [index_leave]

end ComponentSearch

namespace Digraph

open ComponentSearch

variable {n : Nat}

/-- The steps that the frames leave to do in a search that opens no node. -/
def remaining (frames : List (SearchFrame n)) : Nat :=
  frames.foldr (fun f k => f.2.length + 1 + k) 0

/-- Follows every successor that the frames have still to look at. -/
def explore (g : Digraph n) (s : ComponentSearch n) (frames : List (SearchFrame n)) :
    ComponentSearch n :=
  match frames with
  | [] => s
  | (v, []) :: below => explore g (s.leave v (below.head?.map Prod.fst)) below
  | (v, w :: rest) :: below =>
    match _h : s.index[w] with
    | none => explore g (s.enter w) ((w, g.successors[w]) :: (v, rest) :: below)
    | some i =>
      if s.onStack[w] then explore g (s.lower v i) ((v, rest) :: below)
      else explore g s ((v, rest) :: below)
termination_by (s.unopened, remaining frames)
decreasing_by
  · rw [unopened_leave]
    exact Prod.Lex.right _ (by simp [remaining])
  · exact Prod.Lex.left _ _ (unopened_enter_lt _h)
  · exact Prod.Lex.right _ (by simp [remaining])
  · exact Prod.Lex.right _ (by simp [remaining])

/-- Opens a node and explores all that it leads to, unless it has been opened. -/
def searchFrom (g : Digraph n) (s : ComponentSearch n) (v : Fin n) : ComponentSearch n :=
  match s.index[v] with
  | none => g.explore (s.enter v) [(v, g.successors[v])]
  | some _ => s

/-- The search through the whole graph. -/
def search (g : Digraph n) : ComponentSearch n := (List.finRange n).foldl g.searchFrom initial

/-- The strongly connected components, each before the components that lead to it. -/
def components (g : Digraph n) : List (List (Fin n)) := g.search.components

end Digraph

end OwlStructure
