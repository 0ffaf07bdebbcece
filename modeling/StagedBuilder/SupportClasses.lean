import StagedBuilder.Manifest.Basic

namespace StagedBuilder

structure SupportClasses where
  preconditions : String := "com.github.davidmoten.chained.api.Preconditions"
  helpers : String := "com.github.davidmoten.chained.api.Helpers"
  listBuilder : String := "com.github.davidmoten.chained.api.ListBuilder"
  setBuilder : String := "com.github.davidmoten.chained.api.SetBuilder"
  mapBuilder : String := "com.github.davidmoten.chained.api.MapBuilder"
  generated : String := "jakarta.annotation.Generated"
  nonnull : String := "jakarta.annotation.Nonnull"
  nullable : String := "jakarta.annotation.Nullable"
  generator : String := "com.github.davidmoten:chained-processor"
  deriving DecidableEq, Repr

namespace SupportClasses

def override (s : SupportClasses) (o : SupportOverrides) : SupportClasses where
  preconditions := o.preconditions.getD s.preconditions
  helpers := o.helpers.getD s.helpers
  listBuilder := o.listBuilder.getD s.listBuilder
  setBuilder := o.setBuilder.getD s.setBuilder
  mapBuilder := o.mapBuilder.getD s.mapBuilder
  generated := o.generated.getD s.generated
  nonnull := o.nonnull.getD s.nonnull
  nullable := o.nullable.getD s.nullable
  generator := o.generator.getD s.generator

def ofManifest (m : Manifest) : SupportClasses := override {} m.support

end SupportClasses

end StagedBuilder
