import StagedBuilder.ClassName
import StagedBuilder.TypeExpr

namespace StagedBuilder

open Text

def primitives : List String :=
  ["byte", "short", "int", "long", "float", "double", "boolean", "char"]

def isPrimitive (text : String) : Bool := primitives.contains (.ofList (trim text.toList))

def boxes : List (String × String) := [
  ("Byte", "byte"), ("Short", "short"), ("Integer", "int"), ("Long", "long"), ("Float", "float"),
  ("Double", "double"), ("Boolean", "boolean"), ("Character", "char")]

def unbox (name : String) : String :=
  ((boxes ++ boxes.map fun box => ("java.lang." ++ box.1, box.2)).lookup name).getD name

inductive CollectionKind
  | list
  | set
  | map
  deriving DecidableEq, Repr

namespace CollectionKind

def arity : CollectionKind → Nat
  | .list => 1
  | .set => 1
  | .map => 2

end CollectionKind

structure Collection where
  kind : CollectionKind
  implementation : String
  deriving DecidableEq, Repr

def collections : List (String × Collection) := [
  ("java.util.List", ⟨.list, "java.util.ArrayList"⟩),
  ("java.util.ArrayList", ⟨.list, "java.util.ArrayList"⟩),
  ("java.util.LinkedList", ⟨.list, "java.util.LinkedList"⟩),
  ("java.util.Set", ⟨.set, "java.util.HashSet"⟩),
  ("java.util.HashSet", ⟨.set, "java.util.HashSet"⟩),
  ("java.util.LinkedHashSet", ⟨.set, "java.util.LinkedHashSet"⟩),
  ("java.util.SortedSet", ⟨.set, "java.util.TreeSet"⟩),
  ("java.util.TreeSet", ⟨.set, "java.util.TreeSet"⟩),
  ("java.util.Map", ⟨.map, "java.util.LinkedHashMap"⟩),
  ("java.util.HashMap", ⟨.map, "java.util.HashMap"⟩),
  ("java.util.LinkedHashMap", ⟨.map, "java.util.LinkedHashMap"⟩),
  ("java.util.SortedMap", ⟨.map, "java.util.TreeMap"⟩),
  ("java.util.NavigableMap", ⟨.map, "java.util.TreeMap"⟩),
  ("java.util.TreeMap", ⟨.map, "java.util.TreeMap"⟩)]

def optionalClass : String := "java.util.Optional"

def bareNames : List (String × String) :=
  (collections.map Prod.fst ++ [optionalClass]).map fun name => (ClassName.simple name, name)

namespace TypeExpr

mutual

def qualify : TypeExpr → TypeExpr
  | .node base args => .node ((bareNames.lookup base).getD base) (qualifyAll args)

def qualifyAll : List TypeExpr → List TypeExpr
  | [] => []
  | a :: as => a.qualify :: qualifyAll as

end

def isOptional (t : TypeExpr) : Bool := t.base = optionalClass && t.args.length = 1

def collection? (t : TypeExpr) : Option Collection :=
  (collections.lookup t.base).filter fun c => c.kind.arity = t.args.length

def isViewed (t : TypeExpr) : Bool :=
  ["java.util.List", "java.util.Set", "java.util.Map"].contains t.base && t.collection?.isSome

end TypeExpr

end StagedBuilder
