import StagedBuilder.Builder.Construct
import StagedBuilder.Builder.Setter
import StagedBuilder.Java.Layout

/-! The source file of a builder. -/

namespace StagedBuilder.Builder

open Java

/-- A field of the builder; a wrapped parameter that is never set is empty. -/
def field (p : Parameter) (initialised : Bool) : Field where
  type := p.typeRef
  name := p.name
  value :=
    match p.type, p.wrapped? with
    | .parsed type, some _ =>
      if initialised then some (.call (.method (.static type.base) "empty") []) else none
    | _, _ => none

def hiddenConstructor (b : Builder) : Method where
  isPublic := false
  result := none
  name := b.simpleName
  body := [.step (.comment "prevent instantiation")]

def creator (b : Builder) (name : String) (value : Expr) : Method where
  isStatic := true
  result := some (.written b.simpleName)
  name := name
  body := [.step (.ret value)]

def creators (b : Builder) : List Method :=
  b.creator "builder" (.call (.constructor (.written b.simpleName)) []) ::
    if b.construction.isDelegate then []
    else [b.creator "create" (.call (.method .implicit "builder") [])]

def buildMethod (s : SupportClasses) (b : Builder) (isPublic : Bool) : Method where
  isPublic := isPublic
  result := some (.reference b.target)
  name := "build"
  body := [b.construct s]

def root : String := "_b"

def buildRoot : Expr := .call (.method (.value root) "build") []

def delegatedBuild (b : Builder) : Method where
  result := some (.reference b.target)
  name := "build"
  body := [.step (.ret buildRoot)]

def fluentSite (owner : Expr) (type : String) : Site :=
  ⟨owner, .written type, .this, "this builder"⟩

def nextSite (owner : Expr) (p : Parameter) : Site :=
  let stage := TypeRef.written (stageName p.name)
  ⟨owner, stage, .call (.constructor stage) [owner], "the next builder stage"⟩

def builtSite (b : Builder) : Site :=
  ⟨.name root, .reference b.target, buildRoot,
    "the built \x7b@code " ++ ClassName.simple b.target ++ "\x7d"⟩

def stageConstructor (b : Builder) (p : Parameter) : Method where
  isPublic := false
  result := none
  name := stageName p.name
  formals := [{ type := .written b.simpleName, name := root }]
  body := [.step (.assign .this root (.name root))]

def stage (b : Builder) (p : Parameter) (methods : List Method) : NestedClass where
  name := stageName p.name
  fields := [{ isFinal := true, type := .written b.simpleName, name := root }]
  methods := b.stageConstructor p :: methods

def waitingMethods (s : SupportClasses) (b : Builder) (current next : Parameter) (isLast : Bool) :
    List Method :=
  if isLast && b.optional.isEmpty then
    if b.alwaysBuild then
      mandatorySetters s next (fluentSite (.name root) (stageName current.name)) ++
        [b.delegatedBuild]
    else mandatorySetters s next b.builtSite
  else mandatorySetters s next (nextSite (.name root) next)

def optionalMethods (s : SupportClasses) (b : Builder) (last : Parameter) : List Method :=
  b.optional.flatMap (fun p => fluentSetters s p (fluentSite (.name root) (stageName last.name))) ++
    [b.delegatedBuild]

def stagesFrom (s : SupportClasses) (b : Builder) : List Parameter → List NestedClass
  | [] => []
  | [last] =>
    if b.optional.isEmpty then [] else [b.stage last (optionalMethods s b last)]
  | current :: next :: rest =>
    b.stage current (waitingMethods s b current next rest.isEmpty) ::
      stagesFrom s b (next :: rest)

def flatMethods (s : SupportClasses) (b : Builder) : List Method :=
  b.hiddenConstructor :: b.creators ++
    b.params.flatMap (fun p => fluentSetters s p (fluentSite .this b.simpleName)) ++
    [b.buildMethod s true]

def factoryMethod (s : SupportClasses) (b : Builder) (p : Parameter) : Method where
  isStatic := true
  result := some (.reference b.target)
  name := "of"
  formals := [p.formal s]
  body := p.nullCheck s ++ [b.construct s]

def stagedMethods (s : SupportClasses) (b : Builder) : List Method :=
  b.hiddenConstructor :: b.creators ++
    (b.mandatory.head?.map fun p => mandatorySetters s p (nextSite .this p)).getD [] ++
    [b.buildMethod s false]

def copied : String := "value"

def copyMethod (s : SupportClasses) (b : Builder) : Method where
  isStatic := true
  result := some (.written copyName)
  name := "copy"
  formals := [⟨some s.nonnull, .reference b.target, copied⟩]
  body := [
    .step (.nullChecks s.preconditions [copied]),
    .step (.ret (.call (.constructor (.written copyName)) [.name copied]))]

def copyConstructor (b : Builder) : Method where
  isPublic := false
  result := none
  name := copyName
  formals := [{ type := .reference b.target, name := copied }]
  body := b.params.map fun p =>
    .step (.assign .this p.name (.call (.method (.value copied) p.reader) []))

/-- A builder without stages whose values start as those of an instance. -/
def copyClass (s : SupportClasses) (b : Builder) : NestedClass where
  name := copyName
  fields := b.params.map (field · false)
  methods :=
    b.copyConstructor ::
      b.params.flatMap (fun p => fluentSetters s p (fluentSite .this copyName)) ++
      [b.buildMethod s true]

def copyMembers (s : SupportClasses) (b : Builder) : List Member :=
  if b.emitsCopy then [.method (b.copyMethod s), .nested (b.copyClass s)] else []

def shapeMembers (s : SupportClasses) (b : Builder) : List Member :=
  match b.shape, b.params with
  | .flat, _ => (b.flatMethods s).map .method
  | .factory, params => (b.hiddenConstructor :: params.map (b.factoryMethod s)).map .method
  | .staged, _ => (b.stagedMethods s).map .method ++ (b.stagesFrom s b.mandatory).map .nested

def unit (s : SupportClasses) (b : Builder) : SourceUnit where
  package := ClassName.package b.name
  name := b.simpleName
  marker := s.generated
  origin := s.generator
  favoured := if b.shape = .staged then some b.target else none
  fields := if b.shape = .factory then none else some (b.params.map (field · true))
  members := b.shapeMembers s ++ b.copyMembers s

/-- The names of the file before any class of another file is used. -/
def ownNames (b : Builder) : Imports :=
  (b.stageNames ++ if b.emitsCopy then [copyName] else []).foldl .reserve (.ofOwner b.name)

def source (s : SupportClasses) (b : Builder) : Except GenerationError String := do
  Parameter.checkAll b.params
  return (b.unit s).text b.ownNames

end StagedBuilder.Builder
