import CTyping.Proofs.Tree.Nodes
import CTyping.Proofs.Tree.Parts
import Mathlib.Data.List.Induction
import Mathlib.Data.List.Lex
import Mathlib.Logic.Function.Iterate

/-!
# The order in which expressions are listed

`CTyping.Program.expressions` lists the nodes that stand in a program as expressions. It goes round
by round (`CTyping.Expr.round`), one node a round, until nothing is pending. The order is that of a
recursion over each expression that stands by itself, from right to left (`CTyping.Expr.preorder`).

That no node is left out and none is listed twice cannot be said of the expressions, since a program
may hold the same expression in several places. It is said of the addresses (`CTyping.Node.at?`):
those of the listed nodes are all addresses of expressions, each one once, since they descend
(`CTyping.Node.Lists`).
-/

namespace CTyping

/-! ### Rounds -/

namespace Expr

/-- One round of the walk: the expression on top of those that are pending is listed, and its
operands go on top, the last one highest. -/
def round : List Expr × List Expr → List Expr × List Expr
  | ([], listed) => ([], listed)
  | (e :: pending, listed) => (e.children.reverse ++ pending, listed ++ [e])

/-- A walk lists as many nodes as there are. -/
theorem length_walk (stack : List Expr) : (walk stack).length = nodesList stack := by
  fun_induction walk stack with
  | case1 => rfl
  | case2 e rest ih =>
    rw [List.length_cons, ih, nodesList_append, nodesList_reverse, nodesList, nodes_eq e]
    omega

/-- After some rounds as many nodes of the walk are listed, and the walk goes on from what is
pending. -/
theorem iterate_round (k : Nat) (pending listed : List Expr) :
    (round^[k] (pending, listed)).2 = listed ++ (walk pending).take k ∧
      walk (round^[k] (pending, listed)).1 = (walk pending).drop k := by
  induction k generalizing pending listed with
  | zero => simp
  | succ k ih =>
    rw [Function.iterate_succ_apply]
    cases pending with
    | nil =>
      obtain ⟨hlisted, hpending⟩ := ih [] listed
      rw [round, hlisted, hpending, walk]
      simp
    | cons e rest =>
      -- a round lists `e`, and its operands go onto the stack
      obtain ⟨hlisted, hpending⟩ := ih (e.children.reverse ++ rest) (listed ++ [e])
      rw [round, hlisted, hpending, walk]
      simp

/-- A walk is over at once only if there was nothing to walk through. -/
theorem walk_eq_nil_iff {stack : List Expr} : walk stack = [] ↔ stack = [] := by
  cases stack with
  | nil => simp [walk]
  | cons e rest => simp [walk]

/-- After some rounds nothing is pending if and only if there were no more nodes than rounds. -/
theorem iterate_round_fst_eq_nil_iff (k : Nat) (pending listed : List Expr) :
    (round^[k] (pending, listed)).1 = [] ↔ nodesList pending ≤ k := by
  rw [← walk_eq_nil_iff, (iterate_round k pending listed).2, List.drop_eq_nil_iff, length_walk]

/-! ### From right to left -/

mutual

/-- A node, then its operands with theirs, the last operand first. -/
def preorder : Expr → List Expr
  | e@(intLit _ _ _) => [e]
  | e@(strLit _ _) => [e]
  | e@(var _ _ _) => [e]
  | e@(unary _ _ a) => e :: preorder a
  | e@(step _ _ a) => e :: preorder a
  | e@(addressOf _ a) => e :: preorder a
  | e@(deref _ a) => e :: preorder a
  | e@(binary _ _ l r) => e :: (preorder r ++ preorder l)
  | e@(assign _ _ l r) => e :: (preorder r ++ preorder l)
  | e@(cond _ c a b) => e :: (preorder b ++ preorder a ++ preorder c)
  | e@(call _ f as) => e :: (preorderList as ++ preorder f)
  | e@(index _ b x) => e :: (preorder x ++ preorder b)
  | e@(member _ b _) => e :: preorder b
  | e@(arrow _ b _) => e :: preorder b
  | e@(cast _ _ a _) => e :: preorder a
  | e@(sizeofType _ _) => [e]
  | e@(sizeofExpr _ a) => e :: preorder a

/-- The nodes of the expressions of a list, the last expression first. -/
def preorderList : List Expr → List Expr
  | [] => []
  | e :: es => preorderList es ++ preorder e

end

theorem preorderList_eq (es : List Expr) : preorderList es = es.reverse.flatMap preorder := by
  induction es with
  | nil => rfl
  | cons e es ih =>
    rw [preorderList, ih, List.reverse_cons, List.flatMap_append, List.flatMap_singleton]

/-- A node is listed before its operands, of which the last one comes first. -/
theorem preorder_eq (e : Expr) : e.preorder = e :: e.children.reverse.flatMap preorder := by
  cases e <;> simp [preorder, children, preorderList_eq]

/-- **The walk lists each expression on its stack in preorder.** -/
theorem walk_eq_flatMap_preorder (stack : List Expr) : walk stack = stack.flatMap preorder := by
  fun_induction walk stack with
  | case1 => rfl
  | case2 e rest ih =>
    rw [ih, List.flatMap_append, List.flatMap_cons, preorder_eq e, List.cons_append]

theorem isFullyTypedList_eq (es : List Expr) : isFullyTypedList es = es.all isFullyTyped := by
  induction es with
  | nil => rfl
  | cons e es ih => rw [isFullyTypedList, ih, List.all_cons]

/-- A tree is fully typed if its slot is filled and its operands are fully typed. -/
theorem isFullyTyped_eq (e : Expr) :
    e.isFullyTyped = (e.ty?.isSome && e.children.all isFullyTyped) := by
  cases e <;> simp [isFullyTyped, children, ty?, info, isFullyTypedList_eq, Bool.and_assoc]

/-- The recursion asks for the type of every node. -/
theorem isFullyTyped_iff (e : Expr) :
    e.isFullyTyped = true ↔ e.Everywhere fun x => x.ty?.isSome = true := by
  induction e using inductionOnChildren with
  | node e ih =>
    rw [isFullyTyped_eq, everywhere_iff, Bool.and_eq_true, List.all_eq_true]
    exact and_congr Iff.rfl (forall₂_congr ih)

end Expr

/-! ### Listing part by part -/

namespace Node

/-- The expressions that stand in a node by themselves, in the order of the walk. -/
def roots : Node → List Expr
  | program p => p.roots
  | function f => f.body.collect (·.initializer.toList) fun e => [e]
  | param _ => []
  | var v => v.initializer.toList
  | block b => b.collect (·.initializer.toList) fun e => [e]
  | stmt s => s.roots
  | arm c => c.collect (·.initializer.toList) fun e => [e]
  | expr e => [e]

/-- The expression that a node is, if it is one. -/
def own : Node → List Expr
  | expr e => [e]
  | _ => []

end Node

/-- The expressions of a statement are those of its parts, in order. -/
theorem Stmt.roots_eq (s : Stmt) : s.roots = s.parts.flatMap Node.roots := by
  cases s with
  | ifElse s c t e => cases e <;> simp [roots, collect, parts, Node.roots]
  | _ => simp [roots, collect, parts, Node.roots, collectCases_eq, List.flatMap_map]

namespace Node

/-- Apart from expressions, what stands in a node stands in its parts. -/
theorem roots_of_own {n : Node} (h : n.own = []) : n.roots = n.parts.flatMap roots := by
  cases n with
  | program p => simp [roots, parts, Program.roots, List.flatMap_map]
  | function f => simp [roots, parts, List.flatMap_map]
  | param p => rfl
  | var v => simp [roots, parts, List.flatMap_map]
  | block b => simp [roots, parts, Block.collect_eq, List.flatMap_map]
  | stmt s => exact s.roots_eq
  | arm c => simp [roots, parts, Case.collect_eq, List.flatMap_map]
  | expr e => cases h

/-- The nodes that the walk lists of a node. -/
def listing (n : Node) : List Expr := Expr.walk n.roots.reverse

/-- What is listed of a node are the trees in it, the last one first. -/
theorem listing_eq_flatMap (n : Node) : n.listing = n.roots.reverse.flatMap Expr.preorder :=
  Expr.walk_eq_flatMap_preorder _

/-- What is listed of nodes is listed node by node, the last one first. -/
theorem flatMap_roots_listing (ns : List Node) :
    (ns.flatMap roots).reverse.flatMap Expr.preorder = ns.reverse.flatMap listing := by
  rw [List.reverse_flatMap, List.flatMap_assoc]
  exact congrArg (ns.reverse.flatMap ·) (funext fun n => n.listing_eq_flatMap.symm)

/-- **What is listed of a node is listed of its parts**, the last part first. -/
theorem listing_eq (n : Node) : n.listing = n.own ++ n.parts.reverse.flatMap listing := by
  rw [← flatMap_roots_listing, listing_eq_flatMap]
  cases hown : n.own with
  | nil => rw [roots_of_own hown, List.nil_append]
  | cons e es =>
    cases n with
    | expr e' =>
      obtain ⟨rfl, rfl⟩ := List.cons.inj hown
      have hparts : (expr e').parts.flatMap roots = e'.children := by
        simp [parts, roots, List.flatMap_map]
      rw [hparts, roots, List.reverse_singleton, List.flatMap_singleton, Expr.preorder_eq]
      rfl
    | _ => cases hown

/-! ### Every address once -/

/-- A list of addresses and one of expressions that stand there, such that no address of an
expression is left out. The addresses descend: one comes before those that it leads to, and what
stands further right comes before what stands further left. -/
structure Lists (look : List Nat → Option Node) (addresses : List (List Nat)) (es : List Expr) :
    Prop where
  descends : addresses.Pairwise (List.Lex (· > ·))
  nodes : addresses.map look = es.map fun e => some (expr e)
  complete : ∀ ⦃address e⦄, look address = some (expr e) → address ∈ addresses

/-- The node at an address in a list of nodes. -/
def lookIn (ns : List Node) : List Nat → Option Node
  | [] => none
  | k :: address => ns[k]?.bind (at? · address)

/-- An address that starts at an earlier node is not changed by a node behind it. -/
theorem lookIn_append_left {ns : List Node} (n : Node) {k : Nat} (hk : k < ns.length)
    (address : List Nat) : lookIn (ns ++ [n]) (k :: address) = lookIn ns (k :: address) := by
  rw [lookIn, lookIn, List.getElem?_append_left hk]

/-- An address that starts at the last node leads into that. -/
theorem lookIn_append_right (ns : List Node) (n : Node) (address : List Nat) :
    lookIn (ns ++ [n]) (ns.length :: address) = n.at? address := by
  rw [lookIn, List.getElem?_concat_length, Option.bind_some]

/-- Every address that is listed starts at one of the nodes. -/
theorem Lists.exists_lt {ns : List Node} {as : List (List Nat)} {es : List Expr}
    (h : Lists (lookIn ns) as es) {a : List Nat} (ha : a ∈ as) :
    ∃ k address, k < ns.length ∧ a = k :: address := by
  have hmem : lookIn ns a ∈ es.map fun e => some (expr e) := h.nodes ▸ List.mem_map_of_mem ha
  obtain ⟨e, -, he⟩ := List.mem_map.mp hmem
  cases a with
  | nil => cases he
  | cons k address =>
    obtain ⟨n, hn, -⟩ := Option.bind_eq_some_iff.mp he.symm
    exact ⟨k, address, (List.getElem?_eq_some_iff.mp hn).1, rfl⟩

/-- One more node is listed before the others. -/
theorem Lists.append {ns : List Node} {n : Node} {as bs : List (List Nat)} {es fs : List Expr}
    (hns : Lists (lookIn ns) bs fs) (hn : Lists n.at? as es) :
    Lists (lookIn (ns ++ [n])) (as.map (ns.length :: ·) ++ bs) (es ++ fs) where
  descends := by
    -- the addresses into the last node come first, and are above all others
    refine List.pairwise_append.mpr ⟨?_, hns.descends, fun a ha b hb => ?_⟩
    · exact List.pairwise_map.mpr (hn.descends.imp .cons)
    · obtain ⟨address, -, rfl⟩ := List.mem_map.mp ha
      obtain ⟨k, address', hk, rfl⟩ := hns.exists_lt hb
      exact .rel hk
  nodes := by
    rw [List.map_append, List.map_append, List.map_map]
    congr 1
    · rw [← hn.nodes]
      exact List.map_congr_left fun a _ => lookIn_append_right ns n a
    · rw [← hns.nodes]
      refine List.map_congr_left fun b hb => ?_
      obtain ⟨k, address, hk, rfl⟩ := hns.exists_lt hb
      exact lookIn_append_left n hk address
  complete := by
    intro address e h
    rw [List.mem_append]
    cases address with
    | nil => cases h
    | cons k address =>
      -- an address starts at an earlier node, at the last one, or leads nowhere
      rcases Nat.lt_trichotomy k ns.length with hk | rfl | hk
      · rw [lookIn_append_left n hk] at h
        exact Or.inr (hns.complete h)
      · rw [lookIn_append_right] at h
        exact Or.inl (List.mem_map_of_mem (hn.complete h))
      · have hnone : (ns ++ [n])[k]? = none := by
          rw [List.getElem?_eq_none_iff, List.length_append]
          exact hk
        rw [lookIn, hnone] at h
        cases h

/-- Nodes that are listed each are listed together, the last one first. -/
theorem lists_lookIn {ns : List Node} (h : ∀ n ∈ ns, ∃ as, Lists n.at? as n.listing) :
    ∃ as, Lists (lookIn ns) as (ns.reverse.flatMap listing) := by
  induction ns using List.reverseRecOn with
  | nil => exact ⟨[], .nil, rfl, fun a e ha => by cases a <;> cases ha⟩
  | append_singleton ns n ih =>
    obtain ⟨bs, hbs⟩ := ih fun m hm => h m (List.mem_append_left _ hm)
    obtain ⟨as, has⟩ := h n (List.mem_append_right _ List.mem_cons_self)
    refine ⟨as.map (ns.length :: ·) ++ bs, ?_⟩
    rw [List.reverse_concat, List.flatMap_cons]
    exact hbs.append has

/-- What is listed of the parts is listed of the node, at the same addresses. -/
theorem Lists.map_at? {n : Node} {as : List (List Nat)} {es : List Expr}
    (h : Lists (lookIn n.parts) as es) : as.map n.at? = es.map fun e => some (Node.expr e) := by
  rw [← h.nodes]
  refine List.map_congr_left fun a ha => ?_
  obtain ⟨k, address, -, rfl⟩ := h.exists_lt ha
  rfl

/-- A node that is no expression is listed as its parts are. -/
theorem Lists.of_own {n : Node} {as : List (List Nat)} {es : List Expr} (hn : n.own = [])
    (h : Lists (lookIn n.parts) as es) : Lists n.at? as es where
  descends := h.descends
  nodes := h.map_at?
  complete := by
    intro address e he
    cases address with
    | nil =>
      obtain rfl : n = .expr e := Option.some.inj he
      cases hn
    | cons k address => exact h.complete he

/-- An expression is listed before its operands. -/
theorem Lists.expr {e : Expr} {as : List (List Nat)} {es : List Expr}
    (h : Lists (lookIn (Node.expr e).parts) as es) :
    Lists (Node.expr e).at? ([] :: as) (e :: es) where
  descends := by
    refine .cons (fun a ha => ?_) h.descends
    obtain ⟨k, address, -, rfl⟩ := h.exists_lt ha
    exact .nil
  nodes := by rw [List.map_cons, List.map_cons, h.map_at?, at?]
  complete := by
    intro address e' he
    cases address with
    | nil => exact List.mem_cons_self
    | cons k address => exact List.mem_cons_of_mem _ (h.complete he)

/-- **The walk lists every expression in a node once.** -/
theorem lists_listing (n : Node) : ∃ as, Lists n.at? as n.listing := by
  induction n using induction with
  | node n ih =>
    obtain ⟨as, has⟩ := lists_lookIn ih
    rw [listing_eq]
    cases n with
    | expr e => exact ⟨[] :: as, has.expr⟩
    | _ => exact ⟨as, has.of_own rfl⟩

end Node

/-! ### Programs -/

/-- A program is fully typed if all expressions are that stand by themselves. -/
theorem Program.isFullyTyped_iff (p : Program) :
    p.isFullyTyped = true ↔ ∀ e ∈ p.roots, e.isFullyTyped = true := by
  rw [isFullyTyped, expressions, List.all_eq_true, Expr.forall_mem_walk_iff]
  simp only [List.mem_reverse, Expr.isFullyTyped_iff]

/-- **The walk over a program lists each of its expressions once.** It ends after as many rounds as
there are nodes, with one more listed in each. Expressions that stand by themselves come in reverse
order, each in preorder from right to left; and all that stands anywhere in the program as an
expression is listed, once. So a program is fully typed if every expression that stands by itself
is. -/
theorem walk_lists_each_expression_once (p : Program) :
    (∀ k, ((Expr.round^[k] (p.roots.reverse, [])).1 = [] ↔ Expr.nodesList p.roots ≤ k) ∧
        (Expr.round^[k] (p.roots.reverse, [])).2 = p.expressions.take k) ∧
      p.expressions = p.roots.reverse.flatMap Expr.preorder ∧
      (∃ addresses, Node.Lists (Node.program p).at? addresses p.expressions) ∧
      (p.isFullyTyped = true ↔ ∀ e ∈ p.roots, e.isFullyTyped = true) := by
  refine ⟨fun k => ⟨?_, ?_⟩, Expr.walk_eq_flatMap_preorder _, (Node.program p).lists_listing,
    p.isFullyTyped_iff⟩
  · rw [Expr.iterate_round_fst_eq_nil_iff, Expr.nodesList_reverse]
  · exact (Expr.iterate_round k _ _).1

end CTyping
