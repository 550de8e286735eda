import WebConfigAudit.Xml.Reader
/-!
Namespaces: which prefixes are bound to which names, and what start tags may not
say.
-/

namespace WebConfigAudit.Xml

/-- A namespace that the standard names, by its path on the standard's host. -/
def standardNamespace (path : String) : List Char :=
  ("http" ++ "://" ++ "www.w3.org" ++ "/" ++ path).toList

/-- The namespace that the prefix `xml` is always bound to. -/
def xmlNamespace : List Char := standardNamespace "XML/1998/namespace"

/-- The namespace of declarations, which nothing may be bound to. -/
def xmlnsNamespace : List Char := standardNamespace "2000/xmlns/"

/-- A prefix, or the default for elements without one, and its namespace. -/
structure Binding where
  label : Option (List Char)
  uri : List Char
deriving DecidableEq, Repr

/-- What a start tag has said so far: its bindings and its other attributes. -/
structure Pending where
  bindings : List Binding := []
  attributes : List QName := []
deriving DecidableEq, Repr

/-- Bind a prefix.  The prefix `xml` goes with its own namespace only, and no
prefix is bound twice. -/
def Pending.bind? (p : Pending) (label uri : List Char) : Option Pending :=
  if uri = xmlnsNamespace then none
  else if (label = "xml".toList) ≠ (uri = xmlNamespace) then none
  else if p.bindings.any fun b => b.label == some label then none
  else if uri = xmlNamespace then some p
  else some { p with bindings := p.bindings ++ [⟨some label, uri⟩] }

def Pending.bindDefault? (p : Pending) (uri : List Char) : Option Pending :=
  if uri = xmlNamespace ∨ uri = xmlnsNamespace then none
  else some { p with bindings := p.bindings ++ [⟨none, uri⟩] }

def Pending.add? (p : Pending) (name : QName) (value : List Char) :
    Option Pending :=
  if name.qualifier = "xmlns".toList then p.bind? name.localName value
  else if name.localName = "xmlns".toList then p.bindDefault? value
  else some { p with attributes := p.attributes ++ [name] }

/-- The bindings in force inside a start tag: its own, and those around it that
it does not replace. -/
def Pending.scope (p : Pending) (around : List Binding) : List Binding :=
  p.bindings ++ around.filter fun b => !p.bindings.any fun own =>
    own.label == b.label

/-- The namespace of a name; a prefix that is not bound is refused. -/
def resolve? (scope : List Binding) (qualifier : List Char) :
    Option (Option (List Char)) :=
  if qualifier.isEmpty then
    some ((scope.find? fun b => b.label == none).map Binding.uri)
  else ((scope.find? fun b => b.label == some qualifier).map
    Binding.uri).map some

/-- The namespace of an attribute; without a prefix it has none. -/
def resolveAttribute? (scope : List Binding) (name : QName) :
    Option (Option (List Char)) :=
  if name.qualifier = "xml".toList then some (some xmlNamespace)
  else if name.qualifier.isEmpty then some none
  else resolve? scope name.qualifier

/-- Whether all attributes have a namespace and no two are the same. -/
def Pending.isProper (p : Pending) (scope : List Binding) : Bool :=
  match p.attributes.mapM fun name =>
    (resolveAttribute? scope name).map fun uri =>
      (uri, name.localName) with
  | none => false
  | some expanded => expanded.eraseDups.length == expanded.length

end WebConfigAudit.Xml
