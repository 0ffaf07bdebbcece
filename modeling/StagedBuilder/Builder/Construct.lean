import StagedBuilder.Builder.Basic
import StagedBuilder.Java.Declaration

namespace StagedBuilder.Builder

open Java Text

def argument (s : SupportClasses) (p : Parameter) : Expr :=
  let view := .call (.method (.static s.helpers) "unmodifiable") [.name p.name]
  if p.type.isViewed then
    if p.isNullable then .ifNull (.name p.name) .null view else view
  else .name p.name

def erasure (p : Parameter) : TypeRef :=
  match p.type with
  | .parsed type => .reference type.base
  | .verbatim text => .written (.ofList (trim (text.toList.takeWhile (· ≠ '<'))))

def construct (s : SupportClasses) (b : Builder) : Stmt :=
  let args := b.params.map (argument s)
  match b.construction with
  | .direct => .step (.retCall (.constructor (.reference b.target)) args)
  | .reflective => .reflective b.target (b.params.map erasure) args
  | .delegate implementation =>
    .step (.retCall (.method (.static implementation) "create") args)

end StagedBuilder.Builder
