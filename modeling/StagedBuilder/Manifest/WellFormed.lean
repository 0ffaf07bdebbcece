import StagedBuilder.Manifest.Fault
import StagedBuilder.Text.Blank

namespace StagedBuilder

open Text

def contextOf (kind : String) (path : List String) : String :=
  if path.isEmpty then kind else kind ++ " in '" ++ ".".intercalate path ++ "'"

def nameFault? (path : List String) (kind name : String) : Option Fault :=
  if isKeyword name then some ⟨.keyword name (contextOf kind path), some name⟩
  else
    (identifierFault? name).map fun cause =>
      ⟨.identifier name (contextOf kind path) cause, some name⟩

/-- Dotted names; the faults of a segment are sought by the whole name. -/
def qualifiedNameFault? (path : List String) (kind name : String) : Option Fault :=
  let context := contextOf kind path
  if name = "" then some ⟨.identifier name context .empty, none⟩
  else
    (ClassName.segments name).findSome? fun segment =>
      match identifierFault? segment with
      | some cause => some ⟨.identifier name context cause, some name⟩
      | none => if isKeyword segment then some ⟨.keyword segment context, some name⟩ else none

/-- A template is tried out on a class in a package. -/
def templateFault? (path : List String) (kind template : String) : Option Fault :=
  let resolved := NameTemplate.resolve ⟨template⟩ "pkg" "Simple"
  if (ClassName.segments resolved).all isIdentifier then none
  else some ⟨.template template (contextOf kind path), some template⟩

def packageFault? (path : List String) (type package : String) : Option Fault :=
  if package = "" then none
  else
    (qualifiedNameFault? path "package" package).orElse fun _ =>
      if (package.toList ++ ['.']).isPrefixOf type.toList then none
      else some ⟨.foreignPackage package type, some package⟩

namespace TypeDecl

def kindFault? (name : String) (d : TypeDecl) : Option Fault :=
  match d.kind with
  | .plainClass => if d.params.isEmpty then none else some ⟨.paramsOfClass name, some name⟩
  | kind => if d.constructors.isEmpty then none else some ⟨.constructorsOf kind name, some name⟩

def checkFault? (path : List String) (name : String) (d : TypeDecl) (check : String) :
    Option Fault :=
  if d.kind = .interface then nameFault? path "check method" check
  else some ⟨.checkOf d.kind name, some check⟩

end TypeDecl

def parameterFault? (path : List String) (type : String) (p : ParameterDecl) : Option Fault :=
  (nameFault? path "parameter" p.name).orElse fun _ =>
  (p.accessor.bind (nameFault? path "accessor")).orElse fun _ =>
  if p.type.toList.all isBlank then some ⟨.emptyType p.name type, some p.name⟩ else none

def parametersFault? (path : List String) (type : String) :
    List String → List ParameterDecl → Option Fault
  | _, [] => none
  | seen, p :: ps =>
    (parameterFault? path type p).orElse fun _ =>
      if seen.contains p.name then some ⟨.duplicateParameter p.name type, some p.name⟩
      else parametersFault? path type (p.name :: seen) ps

namespace TypeDecl

def fault? (path : List String) (name : String) (d : TypeDecl) : Option Fault :=
  (d.package.bind (packageFault? path name)).orElse fun _ =>
  (d.builder.bind (templateFault? path "builder")).orElse fun _ =>
  (d.implementation.bind (templateFault? path "implementation")).orElse fun _ =>
  (d.kindFault? name).orElse fun _ =>
  (d.check.bind (d.checkFault? path name)).orElse fun _ =>
  (parametersFault? path name [] d.params).orElse fun _ =>
  d.constructors.findSome? fun c => parametersFault? path name [] c.params

end TypeDecl

namespace Manifest

def fault? (m : Manifest) : Option Fault :=
  (templateFault? [] "defaults.builder" m.defaults.builder).orElse fun _ =>
  (templateFault? [] "defaults.implementation" m.defaults.implementation).orElse fun _ =>
  m.types.findSome? fun (name, d) =>
    (qualifiedNameFault? [] "type" name).orElse fun _ => d.fault? [name] name

end Manifest

end StagedBuilder
