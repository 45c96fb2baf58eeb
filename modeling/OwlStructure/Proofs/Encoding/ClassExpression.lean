import OwlStructure.Encoding.ClassExpression
import OwlStructure.Proofs.Encoding.Entity
import OwlStructure.Proofs.Expression.ClassTerm

/-!
Class expressions are restored from their JSON. The reader of terms gives back any term, and an
expression is the normal form of its own term.
-/
namespace OwlStructure

open Json

namespace ClassTerm

theorem cardinality?_toNat (n : UInt32) : cardinality? (.int n.toNat) = some n := by
  have h : natBelow? 4294967296 (.int n.toNat) = some n.toNat := if_pos n.toNat_lt
  rw [cardinality?, h, Option.map_some, UInt32.ofNat_toNat]

theorem cardinality_restores (n : UInt32) :
    Restores (fun _ => cardinality?) (.int n.toNat) n := .flat rfl fun _ => cardinality?_toNat n

theorem encodeOperands_eq (ops : List ClassTerm) : encodeOperands ops = ops.map encode := by
  induction ops with
  | nil => rfl
  | cons c ops ih => rw [encodeOperands, ih, List.map_cons, encode]

/-- A term read through what stands under the name of its form. -/
def decodeForm? (positional : Bool) (form : String) (limit : Nat) (j : Json) : Option ClassTerm :=
  decode? positional (limit + 1) (.variant form j)

variable (positional : Bool)

-- Terms are written through their payloads, so the recursion below is on payloads, and a filler is
-- restored from its own payload.
theorem restores_of_payload {c : ClassTerm}
    (h : Restores (decodeForm? positional c.form) c.payload c) :
    Restores (decode? positional) c.encode c := h.variant rfl fun _ => rfl

theorem decodeForm?_intersection (limit : Nat) (items : List Json) :
    decodeForm? positional "ObjectIntersectionOf" limit (.arr items) =
      (listOf? (decode? positional) limit (.arr items)).map intersection := by
  cases limit <;> rfl

theorem decodeForm?_union (limit : Nat) (items : List Json) :
    decodeForm? positional "ObjectUnionOf" limit (.arr items) =
      (listOf? (decode? positional) limit (.arr items)).map union := by
  cases limit <;> rfl

mutual

theorem restores_payload : (c : ClassTerm) →
    Restores (decodeForm? positional c.form) c.payload c
  | .named c => c.iri.restores.map fun i => named ⟨i⟩
  | .intersection ops => by
    have hops := (Restores.listOf (restores_operands ops)).map intersection
    rw [← encodeOperands_eq] at hops
    exact hops.of_eq (decodeForm?_intersection positional · _)
  | .union ops => by
    have hops := (Restores.listOf (restores_operands ops)).map union
    rw [← encodeOperands_eq] at hops
    exact hops.of_eq (decodeForm?_union positional · _)
  | .complement c => (restores_of_payload positional (restores_payload c)).map complement
  | .oneOf is => by
    have his := (Restores.listOf fun i (_ : i ∈ is.toList) => i.restores).map
      fun is => oneOf (.ofList is)
    rw [SortedSet.ofList_toList] at his
    exact his
  | .someValues p c =>
    .pair p.restores (restores_of_payload positional (restores_payload c)) someValues rfl
      fun _ => rfl
  | .allValues p c =>
    .pair p.restores (restores_of_payload positional (restores_payload c)) allValues rfl
      fun _ => rfl
  | .hasValue p i => .pair p.restores i.restores hasValue rfl fun _ => rfl
  | .minCardinality n p c =>
    .triple (cardinality_restores n) p.restores
      (restores_of_payload positional (restores_payload c)) minCardinality rfl fun _ => rfl
  | .exactCardinality n p c =>
    .triple (cardinality_restores n) p.restores
      (restores_of_payload positional (restores_payload c)) exactCardinality rfl fun _ => rfl
  | .maxCardinality n p c =>
    .triple (cardinality_restores n) p.restores
      (restores_of_payload positional (restores_payload c)) maxCardinality rfl fun _ => rfl
  | .hasSelf p => p.restores.map hasSelf
  | .dataSomeValues p r => .pair p.restores r.restores dataSomeValues rfl fun _ => rfl
  | .dataAllValues p r => .pair p.restores r.restores dataAllValues rfl fun _ => rfl
  | .dataHasValue p v => .pair p.restores v.restores dataHasValue rfl fun _ => rfl

theorem restores_operands : (ops : List ClassTerm) →
    ∀ c ∈ ops, Restores (decode? positional) c.encode c
  | [] => fun _ hc => absurd hc List.not_mem_nil
  | c :: ops =>
    List.forall_mem_cons.2
      ⟨restores_of_payload positional (restores_payload c), restores_operands ops⟩

end

theorem restores (c : ClassTerm) : Restores (decode? positional) c.encode c :=
  restores_of_payload positional (restores_payload positional c)

end ClassTerm

theorem ClassExpression.restores (positional : Bool) (c : ClassExpression) :
    Restores (ClassExpression.decode? positional) c.encode c := by
  have h := (c.term.restores positional).map ofTerm
  rw [ofTerm_term] at h
  exact h

end OwlStructure
