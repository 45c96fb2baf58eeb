import OwlStructure.Axiom.Fingerprint
import OwlStructure.Encoding.Axiom
import OwlStructure.Proofs.Order.Lexicographic

/-!
Remembered fingerprints cannot be seen. A program makes axioms, reads, writes and copies them, and
asks for their fingerprints and hashes in between; whatever has been remembered when two axioms are
compared, the answer is the one that their kinds give.
-/
namespace OwlStructure.FingerprintedAxiom

variable {digest : AxiomKind → UInt64}

/-- Feeds a hash, with the fingerprint and nothing else. -/
def hashWith (x : FingerprintedAxiom digest) (feed : UInt64 → α) : α × FingerprintedAxiom digest :=
  (feed x.fingerprint.1, x.fingerprint.2)

/-- The order of the axioms; fingerprints have no part in it. -/
def order (x y : FingerprintedAxiom digest) : Ordering := compare x.statement y.statement

theorem eq_digest_of_known {x : FingerprintedAxiom digest} {d : UInt64} (h : x.known = some d) :
    d = digest x.statement.kind := by
  have hall := x.known_eq
  rw [h] at hall
  exact eq_of_beq hall

theorem sameAs_eq (x y : FingerprintedAxiom digest) :
    x.sameAs y = decide (x.statement.kind = y.statement.kind) := by
  unfold sameAs
  split
  · next c d hc hd =>
    rw [eq_digest_of_known hc, eq_digest_of_known hd]
    by_cases hkind : x.statement.kind = y.statement.kind
    · simp [hkind]
    · simp [hkind]
  · rfl

theorem sameAs_iff {x y : FingerprintedAxiom digest} :
    x.sameAs y = true ↔ x.statement.kind = y.statement.kind := by
  rw [sameAs_eq, decide_eq_true_eq]

theorem fingerprint_eq_of_sameAs {x y : FingerprintedAxiom digest} (h : x.sameAs y = true) :
    x.fingerprint.1 = y.fingerprint.1 := by
  rw [fingerprint_fst, fingerprint_fst, sameAs_iff.1 h]

theorem order_eq_iff {x y : FingerprintedAxiom digest} :
    x.order y = .eq ↔ x.sameAs y = true := by
  rw [sameAs_iff, order, Std.LawfulEqCmp.compare_eq_iff_eq]
  exact ⟨congrArg Axiom.kind, Axiom.ext⟩

/-! ### Programs that hold axioms -/

/-- What a program can ask for, about axioms at certain places. -/
inductive Request where
  | make (k : AxiomKind)
  | read (text : String)
  | copy (i : Nat)
  | write (i : Nat)
  | fingerprint (i : Nat)
  | hash (i : Nat)
  | same (i j : Nat)
  | order (i j : Nat)

inductive Answer where
  | accepted
  | refused
  | text (t : String)
  | number (d : UInt64)
  | same (b : Bool)
  | order (o : Ordering)

/-- Makes an axiom the last of those held, if there is one. -/
def keep (held : List (FingerprintedAxiom digest)) :
    Option (FingerprintedAxiom digest) → Answer × List (FingerprintedAxiom digest)
  | some x => (.accepted, held ++ [x])
  | none => (.refused, held)

/-- Looks at the axiom at a place, and puts back what comes of it. -/
def consult (held : List (FingerprintedAxiom digest)) (i : Nat)
    (f : FingerprintedAxiom digest → Answer × FingerprintedAxiom digest) :
    Answer × List (FingerprintedAxiom digest) :=
  match held[i]? with
  | some x => ((f x).1, held.set i (f x).2)
  | none => (.refused, held)

/-- Looks at the axioms at two places. -/
def relate (held : List (FingerprintedAxiom digest)) (i j : Nat)
    (f : FingerprintedAxiom digest → FingerprintedAxiom digest → Answer) : Answer :=
  match held[i]?, held[j]? with
  | some x, some y => f x y
  | _, _ => .refused

/-- One request. What is made or read is new and has no fingerprint; a copy has that of its
original, and writing is done from a copy. -/
def step (held : List (FingerprintedAxiom digest)) :
    Request → Answer × List (FingerprintedAxiom digest)
  | .make k => keep held ((Axiom.ofKind? k).toOption.map (ofAxiom digest))
  | .read text => keep held ((Json.ofText? (Axiom.decode? true) text).map (ofAxiom digest))
  | .copy i => keep held held[i]?
  | .write i => consult held i fun x => (.text x.statement.encode.compact, x)
  | .fingerprint i => consult held i fun x => (.number x.fingerprint.1, x.fingerprint.2)
  | .hash i => consult held i fun x => x.hashWith .number
  | .same i j => (relate held i j fun x y => .same (x.sameAs y), held)
  | .order i j => (relate held i j fun x y => .order (x.order y), held)

/-- The answers to some requests, and the axioms held after them. -/
def run (held : List (FingerprintedAxiom digest)) :
    List Request → List Answer × List (FingerprintedAxiom digest)
  | [] => ([], held)
  | r :: requests =>
    let (answer, held) := step held r
    let (answers, held) := run held requests
    (answer :: answers, held)

/-! ### The same by kinds alone -/

namespace Request

/-- The axiom that a request adds to those held. -/
def added? (held : List Axiom) : Request → Option Axiom
  | .make k => (Axiom.ofKind? k).toOption
  | .read text => Json.ofText? (Axiom.decode? true) text
  | .copy i => held[i]?
  | _ => none

/-- The answer that the kinds of the axioms give. -/
def answerByKinds (digest : AxiomKind → UInt64) (held : List Axiom) : Request → Answer
  | .write i => (held[i]?.map fun a => Answer.text a.encode.compact).getD .refused
  | .fingerprint i | .hash i => (held[i]?.map fun a => Answer.number (digest a.kind)).getD .refused
  | .same i j =>
    match held[i]?, held[j]? with
    | some a, some b => .same (decide (a.kind = b.kind))
    | _, _ => .refused
  | .order i j =>
    match held[i]?, held[j]? with
    | some a, some b => .order (compare a b)
    | _, _ => .refused
  | r => if (r.added? held).isSome then .accepted else .refused

end Request

/-- The answers that the kinds of the axioms give to some requests. -/
def answersByKinds (digest : AxiomKind → UInt64) (held : List Axiom) : List Request → List Answer
  | [] => []
  | r :: requests =>
    r.answerByKinds digest held ::
      answersByKinds digest (held ++ (r.added? held).toList) requests

section Agreement

variable (held : List (FingerprintedAxiom digest))

theorem keep_agrees (x? : Option (FingerprintedAxiom digest)) :
    (keep held x?).1 = (if (x?.map statement).isSome then .accepted else .refused) ∧
      (keep held x?).2.map statement = held.map statement ++ (x?.map statement).toList := by
  cases x? with
  | none => simp [keep]
  | some x => simp [keep]

/-- A look that keeps what the axiom says changes nothing in what is said at any place. -/
theorem consult_agrees {f : FingerprintedAxiom digest → Answer × FingerprintedAxiom digest}
    {g : Axiom → Answer} (i : Nat) (hanswer : ∀ x, (f x).1 = g x.statement)
    (hstatement : ∀ x, (f x).2.statement = x.statement) :
    (consult held i f).1 = ((held.map statement)[i]?.map g).getD .refused ∧
      (consult held i f).2.map statement = held.map statement := by
  unfold consult
  rw [List.getElem?_map]
  cases hi : held[i]? with
  | none => exact ⟨rfl, rfl⟩
  | some x =>
    obtain ⟨hlt, rfl⟩ := List.getElem?_eq_some_iff.1 hi
    have hlt' : i < (held.map statement).length := by rwa [List.length_map]
    have hget : (held.map statement)[i] = held[i].statement := List.getElem_map ..
    refine ⟨hanswer _, ?_⟩
    rw [List.map_set, hstatement, ← hget, List.set_getElem_self]

theorem relate_agrees {f : FingerprintedAxiom digest → FingerprintedAxiom digest → Answer}
    {g : Axiom → Axiom → Answer} (i j : Nat)
    (h : ∀ x y, f x y = g x.statement y.statement) :
    relate held i j f =
      match (held.map statement)[i]?, (held.map statement)[j]? with
      | some a, some b => g a b
      | _, _ => .refused := by
  unfold relate
  rw [List.getElem?_map, List.getElem?_map]
  cases held[i]? with
  | none => rfl
  | some x =>
    cases held[j]? with
    | none => rfl
    | some y => exact h x y

/-- One request is answered, and adds an axiom, as the kinds alone would have it. -/
theorem step_agrees (r : Request) :
    (step held r).1 = r.answerByKinds digest (held.map statement) ∧
      (step held r).2.map statement =
        held.map statement ++ (r.added? (held.map statement)).toList := by
  have hnew (a? : Option Axiom) : (a?.map (ofAxiom digest)).map statement = a? := by
    cases a? <;> rfl
  have hnone (o : List Axiom) : o = o ++ (none : Option Axiom).toList := (List.append_nil o).symm
  cases r with
  | make k =>
    have h := keep_agrees held ((Axiom.ofKind? k).toOption.map (ofAxiom digest))
    rw [hnew] at h
    exact h
  | read text =>
    have h := keep_agrees held
      ((Json.ofText? (Axiom.decode? true) text).map (ofAxiom digest))
    rw [hnew] at h
    exact h
  | copy i =>
    have h := keep_agrees held held[i]?
    rw [← List.getElem?_map] at h
    exact h
  | write i =>
    obtain ⟨hanswer, hheld⟩ := consult_agrees held
      (f := fun x => (.text x.statement.encode.compact, x)) (g := fun a => .text a.encode.compact) i
      (fun _ => rfl) (fun _ => rfl)
    exact ⟨hanswer, hheld.trans (hnone _)⟩
  | fingerprint i | hash i =>
    obtain ⟨hanswer, hheld⟩ := consult_agrees held
      (f := fun x => (.number x.fingerprint.1, x.fingerprint.2))
      (g := fun a => .number (digest a.kind)) i
      (fun x => congrArg Answer.number x.fingerprint_fst) (fun x => x.fingerprint_statement)
    exact ⟨hanswer, hheld.trans (hnone _)⟩
  | same i j =>
    have hanswer := relate_agrees held (f := fun x y => .same (x.sameAs y))
      (g := fun a b => .same (decide (a.kind = b.kind))) i j
      fun x y => congrArg Answer.same (sameAs_eq x y)
    exact ⟨hanswer, hnone _⟩
  | order i j =>
    exact ⟨relate_agrees held i j fun _ _ => rfl, hnone _⟩

theorem run_agrees (requests : List Request) :
    (run held requests).1 = answersByKinds digest (held.map statement) requests := by
  induction requests generalizing held with
  | nil => rfl
  | cons r requests ih =>
    obtain ⟨hanswer, hheld⟩ := step_agrees held r
    rw [run, answersByKinds, ← hanswer, ← hheld, ← ih]

end Agreement

/-- Whatever function the fingerprints are made by, and whatever a program has asked for, it gets
the answers that the kinds of its axioms give. Any two axioms that it holds are found to be the same
just if their kinds are; then they have one fingerprint. The order agrees with that, although it
puts the superclass of a subclass axiom first. -/
theorem run_hides_fingerprints (digest : AxiomKind → UInt64) (requests : List Request) :
    let result := run ([] : List (FingerprintedAxiom digest)) requests
    result.1 = answersByKinds digest [] requests ∧
    ∀ x ∈ result.2, ∀ y ∈ result.2,
      (x.sameAs y = true ↔ x.statement.kind = y.statement.kind) ∧
      (x.sameAs y = true → x.fingerprint.1 = y.fingerprint.1) ∧
      (x.order y = .eq ↔ x.sameAs y = true) ∧
      ∀ sub sup sub' sup', x.statement = .subClassOf sub sup → y.statement = .subClassOf sub' sup' →
        x.order y = (compare sup sup').then (compare sub sub') := by
  intro result
  refine ⟨run_agrees [] requests, fun x _ y _ => ?_⟩
  refine ⟨sameAs_iff, fingerprint_eq_of_sameAs, order_eq_iff, ?_⟩
  intro sub sup sub' sup' hx hy
  rw [order, hx, hy]
  exact Axiom.compare_subClassOf sub sup sub' sup'

/-- Two axioms with one fingerprint, worked out for both, are told apart by their kinds. -/
theorem run_hides_fingerprints_collision :
    let named (c : String) := ClassExpression.named ⟨⟨c⟩⟩
    let requests : List Request := [.make (.subClassOf (named "A") (named "B")), .hash 0, .copy 0,
      .make (.subClassOf (named "A") (named "C")), .fingerprint 2]
    let result := run ([] : List (FingerprintedAxiom fun _ => 7)) requests
    ∃ x ∈ result.2, ∃ y ∈ result.2, x.known = some 7 ∧ y.known = some 7 ∧
      x.sameAs y = false ∧ x.order y = .lt := by
  intro named requests result
  have hlength : result.2.length = 3 := rfl
  have hx : result.2[1] ∈ result.2 := List.getElem_mem _
  have hy : result.2[2] ∈ result.2 := List.getElem_mem _
  obtain ⟨hsame, -, -, horder⟩ := (run_hides_fingerprints (fun _ => 7) requests).2 _ hx _ hy
  have hkinds : result.2[1].statement.kind ≠ result.2[2].statement.kind := by decide
  have hfirst : compare (named "B") (named "C") = .lt := by decide
  refine ⟨_, hx, _, hy, rfl, rfl, Bool.eq_false_iff.2 fun h => hkinds (hsame.1 h), ?_⟩
  rw [horder (named "A") (named "B") (named "A") (named "C") rfl rfl, hfirst]
  rfl

end OwlStructure.FingerprintedAxiom
