import OwlStructure.Axiom.Basic

/-!
Axioms with a fingerprint that is worked out at most once. Two axioms whose fingerprints are known
and differ are told apart at once; in every other case their kinds decide. For any function that
fingerprints are made by, this is the same as comparing the kinds.
-/
namespace OwlStructure

/-- An axiom, with its fingerprint if it has been asked for. -/
structure FingerprintedAxiom (digest : AxiomKind → UInt64) where
  statement : Axiom
  known : Option UInt64
  known_eq : known.all (· == digest statement.kind) = true

namespace FingerprintedAxiom

variable {digest : AxiomKind → UInt64}

/-- An axiom whose fingerprint has not been asked for. -/
def ofAxiom (digest : AxiomKind → UInt64) (a : Axiom) : FingerprintedAxiom digest := ⟨a, none, rfl⟩

/-- The fingerprint, and the axiom that remembers it. -/
def fingerprint (x : FingerprintedAxiom digest) : UInt64 × FingerprintedAxiom digest :=
  match x.known with
  | some d => (d, x)
  | none =>
    let d := digest x.statement.kind
    (d, { x with known := some d, known_eq := by simp [d] })

theorem fingerprint_fst (x : FingerprintedAxiom digest) :
    x.fingerprint.1 = digest x.statement.kind := by
  unfold fingerprint
  split
  · next d h => simpa [h] using x.known_eq
  · rfl

@[simp] theorem fingerprint_statement (x : FingerprintedAxiom digest) :
    x.fingerprint.2.statement = x.statement := by
  unfold fingerprint
  split <;> rfl

/-- Equality that looks at known fingerprints first. -/
def sameAs (x y : FingerprintedAxiom digest) : Bool :=
  match x.known, y.known with
  | some c, some d => c == d && decide (x.statement.kind = y.statement.kind)
  | _, _ => decide (x.statement.kind = y.statement.kind)

end FingerprintedAxiom

/-- The digest that fingerprints are made by: a hash of the symbols that a kind is sorted by. -/
def AxiomKind.digest (k : AxiomKind) : UInt64 := hash (Keyed.key k)

end OwlStructure
