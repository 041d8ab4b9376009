import RowPolicy.Plan.Basic

/-!
# The JSON form of plans

Plans can be shown. Numbers are kept as they are, also those that JSON cannot express.
-/

namespace RowPolicy

/-- A literal as a JSON value; a real stays a real. -/
def Literal.shown : Literal → Json
  | .real x => .real x
  | l => l.toJson

def PropertyFilter.toJson (f : PropertyFilter) : Json :=
  .obj [("property", .str f.property), ("allowed", .arr (f.allowed.map Literal.shown))]

def Lookup.toJson (l : Lookup) : Json :=
  .obj [("claim", .str l.claim), ("property", (l.property.map PropertyFilter.toJson).getD .null)]

namespace Fragment

mutual

def toJson : Fragment → Json
  | .always => .str "always"
  | .never => .str "never"
  | .literalEq column value =>
    .obj [("literal_eq", .obj [("column", .str column), ("value", value.shown)])]
  | .principalEq column => .obj [("principal_eq", .obj [("column", .str column)])]
  | .inClaim column l =>
    .obj [("in_claim", .obj [("column", .str column), ("lookup", l.toJson)])]
  | .all children => .obj [("all", .arr (toJsons children))]
  | .any children => .obj [("any", .arr (toJsons children))]

def toJsons : List Fragment → List Json
  | [] => []
  | f :: rest => toJson f :: toJsons rest

end

end Fragment

def Condition.toJson : Condition → Json
  | .check c =>
    .obj [("check", .obj [("column", .str c.column), ("describe", .str c.describe),
      ("member", match c.kind with
        | .principal => .null
        | .member l => l.toJson)])]
  | .baked column value => .obj [("baked", .obj [("column", .str column), ("value", value.shown)])]

def Fallback.toJson (f : Fallback) : Json :=
  .obj [("table", .str f.table), ("reason", .str Fallback.reason)]

def Decomposition.toJson : Decomposition → Json
  | .independent cs =>
    .obj [("independent", .arr (cs.map fun c =>
      .obj [("condition", c.toJson), ("column", .str c.column),
        ("fragment", c.fragment.toJson)]))]
  | .fallback f => .obj [("fallback", f.toJson)]

def Accessor.toJson (a : Accessor) : Json :=
  .obj [("table", .str a.table), ("projection", Json.texts a.projection),
    ("conditions", .arr (a.conditions.map Condition.toJson)),
    ("parameters", Json.texts a.parameters)]

def Guard.toJson : Guard → Json
  | .create _ columns conditions =>
    .obj [("columns", Json.texts columns), ("conditions", .arr (conditions.map fun c =>
      .obj [("label", .str c.label), ("fragment", c.fragment.toJson)]))]
  | .restrict _ _ columns key filter =>
    .obj [("columns", Json.texts columns), ("key", .str key), ("filter", filter.toJson)]

/-- The name of what is enforced and its JSON form. -/
def CompiledRule.toField : CompiledRule → String × Json
  | .read view accessor =>
    ("read", .obj [("table", .str view.table), ("projection", Json.texts view.projection),
      ("filter", view.filter.toJson),
      ("accessor", match accessor with
        | .ok a => .obj [("plan", a.toJson)]
        | .error f => .obj [("fallback", f.toJson), ("display", .str f.display)])])
  | .write g =>
    ("write", .obj [("table", .str g.table), ("operation", .str g.operation.text),
      ("guard", g.toJson)])

end RowPolicy
