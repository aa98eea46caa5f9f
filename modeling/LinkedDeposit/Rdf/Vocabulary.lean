/-!
# Vocabulary

IRIs, link relations and media types shared by the graph model and the repositories.
-/

namespace LinkedDeposit.Vocabulary

def rdfType : String := "http://www.w3.org/1999/02/22-rdf-syntax-ns#type"

/-- The datatype of a literal that names none. -/
def xsdString : String := "http://www.w3.org/2001/XMLSchema#string"

def xsdInteger : String := "http://www.w3.org/2001/XMLSchema#integer"

def xsdDouble : String := "http://www.w3.org/2001/XMLSchema#double"

def xsdBoolean : String := "http://www.w3.org/2001/XMLSchema#boolean"

/-- The containment predicate, which the repository maintains. -/
def ldpContains : String := "http://www.w3.org/ns/ldp#contains"

/-- The interaction model of containers. -/
def ldpBasicContainer : String := "http://www.w3.org/ns/ldp#BasicContainer"

/-- The interaction model of RDF sources. -/
def ldpRdfSource : String := "http://www.w3.org/ns/ldp#RDFSource"

/-- The interaction model of binaries. -/
def ldpNonRdfSource : String := "http://www.w3.org/ns/ldp#NonRDFSource"

/-- The link relation from a binary to its description. -/
def describedBy : String := "describedby"

/-- The transaction endpoint below a repository base. -/
def transactionSegment : String := "fcr:tx"

/-- The path segment of a binary's description below the binary. -/
def descriptionSegment : String := "fcr:metadata"

def turtle : String := "text/turtle"

def nTriples : String := "application/n-triples"

def jsonLd : String := "application/ld+json"

def sparqlUpdate : String := "application/sparql-update"

def octetStream : String := "application/octet-stream"

end LinkedDeposit.Vocabulary
