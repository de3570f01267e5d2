import UserScripts.Value.Basic

/-!
# Layers

A configuration is the merge of layers, of which later ones win. Maps are merged field by field at every depth, any other
value replaces what is below it, and a field marked as unset leaves it as it is.
-/

namespace UserScripts

mutual

/-- What a field holds after a layer gives it `value`, if it held `below` before. -/
def Value.over (below : Option Value) : Value → Option Value
  | .unset => below
  | .map fields => some (.map (Fields.merge (below.elim [] Value.fields) fields))
  | value => some value

/-- The fields of `base` with those of a further layer merged into them. -/
def Fields.merge (base : Fields) : Fields → Fields
  | [] => base
  | (key, value) :: rest =>
    Fields.merge
      (match Value.over (Fields.under? key base) value with
        | some new => Fields.set key new base
        | none => base) rest

end

/-- The merge of a list of layers, the last of which wins; a missing layer adds nothing. -/
def Fields.mergeAll (layers : List (Option Fields)) : Fields :=
  layers.foldl (fun merged layer => Fields.merge merged (layer.getD [])) []

end UserScripts
