/-!
The IRIs of built-in entities, and the namespaces that they are in.
-/
namespace OwlStructure.Vocabulary

def owl : String := "http://www.w3.org/2002/07/owl#"
def rdfs : String := "http://www.w3.org/2000/01/rdf-schema#"
def xsd : String := "http://www.w3.org/2001/XMLSchema#"

def owlThing : String := "http://www.w3.org/2002/07/owl#Thing"
def owlNothing : String := "http://www.w3.org/2002/07/owl#Nothing"
def owlTopObjectProperty : String := "http://www.w3.org/2002/07/owl#topObjectProperty"
def owlBottomObjectProperty : String := "http://www.w3.org/2002/07/owl#bottomObjectProperty"
def owlTopDataProperty : String := "http://www.w3.org/2002/07/owl#topDataProperty"
def owlBottomDataProperty : String := "http://www.w3.org/2002/07/owl#bottomDataProperty"

def rdfsLabel : String := "http://www.w3.org/2000/01/rdf-schema#label"
def rdfsComment : String := "http://www.w3.org/2000/01/rdf-schema#comment"
def rdfsLiteral : String := "http://www.w3.org/2000/01/rdf-schema#Literal"

def xsdString : String := "http://www.w3.org/2001/XMLSchema#string"
def xsdInteger : String := "http://www.w3.org/2001/XMLSchema#integer"
def xsdBoolean : String := "http://www.w3.org/2001/XMLSchema#boolean"
def xsdDouble : String := "http://www.w3.org/2001/XMLSchema#double"

/-- The namespaces, then the built-in IRIs of each. -/
def all : List String :=
  [owl, rdfs, xsd, owlThing, owlNothing, owlTopObjectProperty, owlBottomObjectProperty,
    owlTopDataProperty, owlBottomDataProperty, rdfsLabel, rdfsComment, rdfsLiteral,
    xsdString, xsdInteger, xsdBoolean, xsdDouble]

end OwlStructure.Vocabulary
