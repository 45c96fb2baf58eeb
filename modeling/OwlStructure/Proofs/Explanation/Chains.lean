import OwlStructure.Proofs.Explanation.Nesting
import OwlStructure.Proofs.Explanation.Reached
import OwlStructure.Proofs.Explanation.Siblings
import OwlStructure.Proofs.Explanation.Staging
import OwlStructure.Proofs.Json.Compact

/-!
Explanations along a chain of subclass axioms. The axioms stand below each other in the tree, so the
tree has as many levels as the chain has links, and long chains are nested too deep to be restored.
-/
namespace OwlStructure

open Json ExplanationTree

/-- The axiom that puts a class of a sequence below the next one. -/
def link (c : Nat → Class) (i : Nat) : Axiom :=
  .subClassOf (.named (c i)) (.named (c (i + 1)))

/-- The trees of some links from a number on, each link below the one before. -/
def linked (c : Nat → Class) (i : Nat) : Nat → List ExplanationTree
  | 0 => []
  | m + 1 => [.node (.justification (link c i)) (linked c (i + 1) m)]

variable {c : Nat → Class} {n : Nat}

theorem link_injective (hc : Function.Injective c) : Function.Injective (link c) := by
  intro i j h
  have hkind : (link c i).kind = (link c j).kind := congrArg Axiom.kind h
  have hterm := congrArg ClassExpression.term (AxiomKind.subClassOf.inj hkind).1
  exact hc (ClassTerm.named.inj hterm)

theorem link_ne_subClassOf (hc : Function.Injective c) {sup : ClassExpression} {i : Nat}
    (hsup : sup ≠ .named (c (i + 1))) (j : Nat) : link c j ≠ .subClassOf (.named (c i)) sup := by
  intro he
  have hkind := AxiomKind.subClassOf.inj (congrArg Axiom.kind he)
  have hj := hc (ClassTerm.named.inj (congrArg ClassExpression.term hkind.1))
  exact hsup (hj ▸ hkind.2).symm

theorem defining_link (i : Nat) : (link c i).defining = [.namedClass (c i)] := rfl

theorem depth_encode_link (i : Nat) : (link c i).encode.depth = 3 := rfl

namespace Staging

/-- A staged justification holds the first links of a sequence, and subclass axioms are placed. -/
structure IsChain (s : Staging) (c : Nat → Class) (n : Nat) : Prop extends s.IsSound where
  mem : ∀ a, a ∈ s.axioms ↔ ∃ i < n, a = link c i
  type : s.config.isPassThrough .subClassOf = false

variable {s : Staging} {i : Nat} {path : List Axiom} {consumed : SortedSet Axiom}

theorem IsChain.size_eq (h : s.IsChain c n) (hc : Function.Injective c) : s.axioms.size = n := by
  have hchain : s.axioms = .ofList ((List.range n).map (link c)) := by
    refine SortedSet.ext fun a => ?_
    simp [h.mem, eq_comm]
  have hnodup : ((List.range n).map (link c)).Nodup := List.nodup_range.map (link_injective hc)
  have hperm := SortedSet.toList_ofList_perm ((List.range n).map (link c))
  rw [hchain, SortedSet.size, hperm.length_eq, hnodup.dedup, List.length_map, List.length_range]

/-- A class of the sequence has one candidate, the link from it to the next class, up to the last
class, which has none. -/
theorem IsChain.candidates_eq (h : s.IsChain c n) (hc : Function.Injective c) (i : Nat) :
    s.candidates (.namedClass (c i)) = .ofList (if i < n then [link c i] else []) := by
  refine SortedSet.ext fun a => ?_
  rw [h.mem_candidates, h.mem, SortedSet.mem_ofList]
  constructor
  · rintro ⟨⟨j, hj, rfl⟩, -, hd⟩
    rw [defining_link, List.mem_singleton, Entity.namedClass.injEq] at hd
    rw [hc hd, if_pos hj]
    exact List.mem_singleton_self _
  · split
    · next hi =>
      intro ha
      obtain rfl := List.mem_singleton.1 ha
      exact ⟨⟨i, hi, rfl⟩, rfl, List.mem_singleton_self _⟩
    · exact fun ha => absurd ha List.not_mem_nil

theorem IsChain.leadsTo_eq (h : s.IsChain c n) (hi : i < n) :
    s.leadsTo (link c i) = [.namedClass (c (i + 1))] := by
  have hright : s.map.rightOf (link c i) = (link c i).kind.rightSide := by
    rw [h.map.right, if_pos (SortedSet.mem_toList.2 ((h.mem _).2 ⟨i, hi, rfl⟩))]
  unfold leadsTo
  rw [hright]
  rfl

/-- A link that is not on the path and not placed yet is placed above what explains the class that
it leads to. -/
theorem IsChain.place_eq (h : s.IsChain c n) (depth : Nat) (hi : i < n)
    (hpath : link c i ∉ path) (hnew : link c i ∉ consumed) {below : Placement}
    (hbelow : below = s.explain depth (link c i :: path) (.namedClass (c (i + 1)))
      ⟨consumed.insert (link c i), []⟩) :
    s.place depth path ⟨consumed, []⟩ (link c i) =
      ⟨below.consumed, [.node (.justification (link c i)) below.children]⟩ := by
  have hplaced : ¬ s.isPassedOver path consumed (link c i) = true := by
    rw [isPassedOver_iff, not_or, not_or]
    exact ⟨ne_true_of_eq_false h.type, hnew, hpath⟩
  unfold place
  rw [if_neg hplaced, h.leadsTo_eq hi, hbelow]
  rfl

/-- As long as the path and the placed axioms hold no later links, explaining a class of the
sequence places all links from it on, each below the one before. -/
theorem IsChain.explain_eq (h : s.IsChain c n) (hc : Function.Injective c) (m i depth : Nat)
    (path : List Axiom) (consumed : SortedSet Axiom) (hm : i + m = n) (hdepth : m < depth)
    (hpath : ∀ j, i ≤ j → link c j ∉ path) (hnew : ∀ j, i ≤ j → link c j ∉ consumed) :
    (s.explain depth path (.namedClass (c i)) ⟨consumed, []⟩).children = linked c i m ∧
      ∀ j, i ≤ j → j < n →
        link c j ∈ (s.explain depth path (.namedClass (c i)) ⟨consumed, []⟩).consumed := by
  -- The links from `i` on are new at each step: what was placed before are earlier ones.
  induction m generalizing i depth path consumed with
  | zero =>
    obtain ⟨depth, rfl⟩ := Nat.exists_eq_succ_of_ne_zero (Nat.ne_of_gt hdepth)
    rw [explain_succ, h.candidates_eq hc, if_neg (by omega)]
    refine ⟨sortSiblings_of_length_le_one (Nat.zero_le 1), ?_⟩
    intro j hij hjn
    omega
  | succ m ih =>
    obtain ⟨depth, rfl⟩ := Nat.exists_eq_succ_of_ne_zero (Nat.ne_of_gt (Nat.zero_lt_of_lt hdepth))
    have hi : i < n := by omega
    have hlater {j : Nat} (hj : i + 1 ≤ j) : link c j ≠ link c i := by
      intro he
      have hji := link_injective hc he
      omega
    obtain ⟨hchildren, hconsumed⟩ := ih (i + 1) depth (link c i :: path)
      (consumed.insert (link c i)) (by omega) (by omega)
      (fun j hj => List.not_mem_cons_of_ne_of_not_mem (hlater hj) (hpath j (by omega)))
      (fun j hj => by simp [hlater hj, hnew j (by omega)])
    have hplace := h.place_eq depth hi (hpath i (Nat.le_refl i)) (hnew i (Nat.le_refl i)) rfl
    rw [explain_succ, h.candidates_eq hc, if_pos hi]
    show sortSiblings (s.place depth path ⟨consumed, []⟩ (link c i)).children = _ ∧
      ∀ j, i ≤ j → j < n → link c j ∈ (s.place depth path ⟨consumed, []⟩ (link c i)).consumed
    rw [hplace, hchildren]
    refine ⟨sortSiblings_of_length_le_one (Nat.le_refl 1), ?_⟩
    intro j hij hjn
    rcases Nat.eq_or_lt_of_le hij with rfl | hlt
    · exact (explain_grows h.toIsSound depth _ _ _).mem_consumed (SortedSet.mem_insert.2 (.inl rfl))
    · exact hconsumed j hlt hjn

end Staging

/-! ### Built chains -/

theorem depthItems_linked (c : Nat → Class) (i m : Nat) :
    depthItems (encodeAll (linked c i (m + 1))) = 2 * m + 5 := by
  induction m generalizing i with
  | zero => rfl
  | succ m ih =>
    have hbelow := ih (i + 1)
    rw [linked, encodeAll, encodeAll, depthItems, depthItems_nil, encode, depth_record]
    simp only [List.map_cons, List.map_nil, depthItems, depth_arr, depth_encode_label, hbelow,
      ExplanationNode.statement, depth_encode_link]
    omega

namespace ExplanationOrderer

variable {o o' : ExplanationOrderer} {l l' : Library} {number : Nat} {sup : ClassExpression}
  {t : ExplanationTree}

/-- The tree that explains a subclass axiom by the links of a chain is the chain. -/
theorem order_chain (hc : Function.Injective c) (hsup : sup ≠ .named (c 1))
    (htype : o.config.isPassThrough .subClassOf = false)
    (h : o.order l number (.subClassOf (.named (c 0)) sup) ((List.range n).map (link c)) =
      (.ok t, o', l')) :
    t = .node (.entailment (.subClassOf (.named (c 0)) sup)) (linked c 0 n) := by
  obtain ⟨s, consumed, leftovers, hs, hconfig, ha, hb, -⟩ := order_eq_ok h
  have hchain : s.IsChain c n := by
    refine ⟨hs, fun a => ?_, by rw [hconfig, htype]⟩
    simp [ha, eq_comm]
  have hsize := hchain.size_eq hc
  obtain ⟨hchildren, hconsumed⟩ := hchain.explain_eq hc n 0 (s.axioms.size + 1)
    [.subClassOf (.named (c 0)) sup] ∅ (Nat.zero_add n) (by omega)
    (fun j _ => by simpa using link_ne_subClassOf hc hsup j) (fun j _ => SortedSet.not_mem_empty _)
  simp only [build, Prod.mk.injEq] at hb
  obtain ⟨rfl, -, -⟩ := hb
  set seeds := Seeds.ofKind (Axiom.subClassOf (.named (c 0)) sup).kind
  have hplacement : s.placement ∅ (.subClassOf (.named (c 0)) sup) seeds.source =
      s.explain (s.axioms.size + 1) [.subClassOf (.named (c 0)) sup] (.namedClass (c 0))
        ⟨∅, []⟩ := rfl
  have hrest : s.leftovers (s.placement ∅ (.subClassOf (.named (c 0)) sup) seeds.source).consumed
      seeds.target = [] := by
    rw [List.eq_nil_iff_forall_not_mem]
    intro a ha
    rw [Staging.mem_leftovers, hchain.mem, hplacement] at ha
    obtain ⟨⟨j, hj, rfl⟩, hout⟩ := ha
    exact hout (hconsumed j (Nat.zero_le j) hj)
  rw [hrest, hplacement, hchildren, List.map_nil, List.append_nil]

/-- An explanation by a chain of up to 61 links between classes is restored from its text; the text
of a longer one is refused. -/
theorem order_chain_restored (hc : Function.Injective c) (hn : n ≠ 1)
    (htype : o.config.isPassThrough .subClassOf = false)
    (h : o.order l number (.subClassOf (.named (c 0)) (.named (c n)))
      ((List.range n).map (link c)) = (.ok t, o', l')) :
    ofJson? t.toJson = if n ≤ 61 then .ok t else .error .malformed := by
  have hsup : ClassExpression.named (c n) ≠ .named (c 1) := fun he =>
    hn (hc (ClassTerm.named.inj (congrArg ClassExpression.term he)))
  obtain rfl := order_chain hc hsup htype h
  obtain ⟨-, hread⟩ := ofJson?_toJson
    (.node (.entailment (.subClassOf (.named (c 0)) (.named (c n)))) (linked c 0 n))
  rw [hread]
  refine if_congr ?_ (if_pos rfl) rfl
  have hroot : (Axiom.subClassOf (.named (c 0)) (.named (c n))).encode.depth = 3 := rfl
  simp only [encode, depth_record, List.map_cons, List.map_nil, depthItems, depth_arr,
    depth_encode_label, ExplanationNode.statement, hroot, nestingLimit]
  cases n with
  | zero => simp [linked, encodeAll]
  | succ n =>
    rw [depthItems_linked]
    omega

/-- Every axiom of a chain of 62 links is restored from its text, and so is the entailment, but
their explanation is not. -/
theorem order_chain_not_restored :
    let c (i : Nat) : Class := ⟨⟨"ex:C" ++ i.repr⟩⟩
    let entailment := Axiom.subClassOf (.named (c 0)) (.named (c 62))
    let justification := (List.range 62).map (link c)
    (∀ a ∈ entailment :: justification, ofText? (Axiom.decode? true) a.encode.compact = some a) ∧
      ∃ t o' l', (new default).order (.empty 1) 0 entailment justification = (.ok t, o', l') ∧
        ofJson? t.toJson = .error .malformed := by
  intro c entailment justification
  have hc : Function.Injective c := by
    intro i j h
    have htext : "ex:C" ++ i.repr = "ex:C" ++ j.repr := Iri.mk.inj (Class.mk.inj h)
    have hlist := congrArg String.toList htext
    rw [String.toList_append, String.toList_append, List.append_cancel_left_eq, Nat.toList_repr,
      Nat.toList_repr] at hlist
    exact toDigits_inj.1 hlist
  have hdepth (a : Axiom) (ha : a ∈ entailment :: justification) : a.encode.depth = 3 := by
    rcases List.mem_cons.1 ha with rfl | ha
    · rfl
    · obtain ⟨i, -, rfl⟩ := List.mem_map.1 ha
      exact depth_encode_link i
  refine ⟨fun a ha => ?_, ?_⟩
  · rw [ofText?_compact, a.restores true, hdepth a ha]
    rfl
  · obtain ⟨t, o', l', h⟩ := exists_order_eq_ok (new default) (.empty 1) 0 entailment
      justification rfl
    refine ⟨t, o', l', h, ?_⟩
    rw [order_chain_restored hc (by decide) (by decide) h]
    rfl

end ExplanationOrderer

end OwlStructure
