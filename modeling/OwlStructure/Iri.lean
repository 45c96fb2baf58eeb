import OwlStructure.Error
import OwlStructure.Text.Blank

/-!
IRIs. An IRI ends its namespace at the last `#` or `/`; the short form is what follows, or the
whole IRI when nothing does.
-/
namespace OwlStructure

structure Iri where
  text : String
  deriving DecidableEq, Repr

namespace Iri

instance : Keyed Iri where
  key i := [.text i.text]
  starts i := ⟨_, _, rfl, by simp⟩
  split {a b r s} h := by
    obtain ⟨a⟩ := a
    obtain ⟨b⟩ := b
    simpa using h

/-- An IRI must not be blank. -/
def ofText? (text : String) : Except ModelError Iri :=
  if isBlank text then .error .blankIri else .ok ⟨text⟩

/-- The IRI with a namespace and a local name. -/
def join? (namespaceText localName : String) : Except ModelError Iri :=
  ofText? (namespaceText ++ localName)

def isSeparator (c : Char) : Bool := c = '#' || c = '/'

/-- The characters after the last separator, or all if there is none. -/
def localChars (cs : List Char) : List Char :=
  (cs.reverse.takeWhile fun c => !isSeparator c).reverse

/-- The characters up to and including the last separator. -/
def namespaceChars (cs : List Char) : List Char :=
  (cs.reverse.dropWhile fun c => !isSeparator c).reverse

def namespaceText (i : Iri) : String := String.ofList (namespaceChars i.text.toList)

def shortForm (i : Iri) : String :=
  match localChars i.text.toList with
  | [] => i.text
  | cs => String.ofList cs

theorem namespaceChars_append_localChars (cs : List Char) :
    namespaceChars cs ++ localChars cs = cs := by
  rw [namespaceChars, localChars, ← List.reverse_append, List.takeWhile_append_dropWhile,
    List.reverse_reverse]

/-- An IRI is shown in angle brackets. -/
def render (i : Iri) : String := "<" ++ i.text ++ ">"

end Iri

end OwlStructure
