import StagedBuilder.ClassName
import StagedBuilder.TypeExpr

/-!
The names that one file uses for classes. The first class to use a simple name is written short and
imported; a later one with the same simple name is written in full.
-/

namespace StagedBuilder

open Text

/-- A class name between a wildcard bound and the suffixes of an array type. -/
structure Reference where
  bound : String
  className : String
  dimensions : String
  deriving DecidableEq, Repr

namespace Reference

def wildcardBounds : List String := ["? extends ", "? super "]

def splitBound (s : List Char) : List Char × List Char :=
  match wildcardBounds.find? fun b => b.toList.isPrefixOf s with
  | some b => (b.toList, trimStart (s.drop b.length))
  | none => ([], s)

def takeDimensions : List Char → List Char × List Char
  | ']' :: '[' :: cs => let (d, rest) := takeDimensions cs; (']' :: '[' :: d, rest)
  | '.' :: '.' :: '.' :: cs => let (d, rest) := takeDimensions cs; ('.' :: '.' :: '.' :: d, rest)
  | cs => ([], cs)

def ofText (text : String) : Reference :=
  let (bound, rest) := splitBound (trim text.toList)
  let (dimensions, name) := takeDimensions rest.reverse
  ⟨.ofList bound, .ofList name.reverse, .ofList dimensions.reverse⟩

end Reference

structure Imports where
  package : String
  entries : List (String × String) := []
  /-- Simple names that stand for something in the file. -/
  claimed : List String := []
  deriving DecidableEq, Repr

namespace Imports

def reserve (i : Imports) (simple : String) : Imports := { i with claimed := simple :: i.claimed }

def ofOwner (owner : String) : Imports :=
  reserve { package := ClassName.package owner } (ClassName.simple owner)

def isDotted (name : String) : Bool := name.toList.contains '.'

/-- Takes the class into use. A name without dots is written as it stands and claimed. -/
def note (i : Imports) (name : String) : Imports :=
  if (i.entries.lookup name).isSome then i
  else if !isDotted name then i.reserve name
  else if i.claimed.contains (ClassName.simple name) then
    { i with entries := (name, name) :: i.entries }
  else
    { i.reserve (ClassName.simple name) with
      entries := (name, ClassName.simple name) :: i.entries }

def noteAll (i : Imports) (references : List String) : Imports :=
  references.foldl (fun i r => i.note (Reference.ofText r).className) i

def nameOf (i : Imports) (name : String) : String := (i.entries.lookup name).getD name

/-- How a reference is written; its bound and its array suffixes are kept. -/
def display (i : Imports) (reference : String) : String :=
  let r := Reference.ofText reference
  r.bound ++ i.nameOf r.className ++ r.dimensions

def register (i : Imports) (reference : String) : String × Imports :=
  let i := i.noteAll [reference]
  (i.display reference, i)

mutual

def render (i : Imports) : TypeExpr → String × Imports
  | .node base [] => i.register base
  | .node base (a :: as) =>
    let (name, i) := i.register base
    let (first, i) := i.render a
    let (others, i) := i.renderAll as
    (name ++ "<" ++ ", ".intercalate (first :: others) ++ ">", i)

def renderAll (i : Imports) : List TypeExpr → List String × Imports
  | [] => ([], i)
  | a :: as =>
    let (text, i) := i.render a
    let (texts, i) := i.renderAll as
    (text :: texts, i)

end

def isImported (i : Imports) (entry : String × String) : Bool :=
  entry.1 ≠ entry.2 && ClassName.package entry.1 ≠ i.package &&
    ClassName.package entry.1 ≠ "java.lang"

def imported (i : Imports) : List String :=
  ((i.entries.filter i.isImported).map Prod.fst).mergeSort (fun a b => decide (a ≤ b))

def code (i : Imports) : String := String.join (i.imported.map fun name => s!"import {name};\n")

end Imports

end StagedBuilder
