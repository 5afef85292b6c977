import Wiring.Json.Printer
import Wiring.Plan

/-!
# Plans as documents

The document that a plan is exported as.  Identities are written as numbers, names
and alternatives without data as strings, alternatives with data as objects of one
member, and absent values as null.
-/

namespace Wiring

/-- A position as a document. -/
def NodeId.toJson (id : NodeId) : Json := .number id.index

/-- A position as a document. -/
def ScopeId.toJson (id : ScopeId) : Json := .number id.index

/-- A qualified name as a document. -/
def QName.toJson (n : QName) : Json := .string n.text

namespace Ty

mutual

/-- A type as a document. -/
def toJson : Ty → Json
  | ⟨c, arguments, q, n, s⟩ =>
      .object
        [("classifier", .number c.index), ("arguments", .array (toJsonAll arguments)),
          ("qualifiers", Json.ofList (fun q => .number q.index) q.ids),
          ("nullable", .bool n), ("star", .bool s)]

/-- The types of a list as documents. -/
def toJsonAll : List Ty → List Json
  | [] => []
  | t :: ts => toJson t :: toJsonAll ts

end

end Ty

/-- The name of a role in exported documents. -/
def Role.name : Role → String
  | binding => "Binding"
  | mapEntry => "MapEntry"
  | setElement => "SetElement"
  | moduleInclude => "Module"
  | interceptor => "Interceptor"
  | multibinds => "Multibinds"
  | inert => "None"

/-- The name of a kind of call in exported documents. -/
def CallKind.name : CallKind → String
  | plain => "Default"
  | suspend => "Suspend"
  | composable => "Composable"

/-- The name of a call context in exported documents. -/
def CallContext.name : CallContext → String
  | plain => "Default"
  | suspend => "Suspend"
  | composable => "Composable"

/-- The name of a policy in exported documents. -/
def DuplicatePolicy.name : DuplicatePolicy → String
  | fail => "Fail"
  | override => "Override"
  | drop => "Drop"

/-- A parameter as a document. -/
def Parameter.toJson (p : Parameter) : Json :=
  .object
    [("name", .string p.name), ("type_ref", p.type.toJson),
      ("is_assisted", .bool p.assisted), ("has_default", .bool p.hasDefault)]

/-- A map key as a document. -/
def MapKey.toJson (k : MapKey) : Json :=
  .object [("type_ref", k.type.toJson), ("value", .string k.value)]

/-- A declaration as a document. -/
def Declaration.toJson (d : Declaration) : Json :=
  .object
    [("fq_name", d.name.toJson), ("type_ref", d.type.toJson),
      ("value_parameters", Json.ofList Parameter.toJson d.parameters),
      ("type_parameters", Json.ofList (fun c => .number c.index) d.typeParameters),
      ("contribution_kind", .string d.role.name),
      ("target_component", Json.ofOption Ty.toJson d.component),
      ("is_external", .bool d.external), ("eager", .bool d.eager),
      ("callable_kind", .string d.callKind.name),
      ("duplicate_policy", .string d.policy.name),
      ("map_key", Json.ofOption MapKey.toJson d.mapKey)]

/-- A request as a document. -/
def Request.toJson (r : Request) : Json :=
  .object
    [("type_ref", r.type.toJson), ("origin", r.origin.toJson),
      ("required", .bool r.required), ("lazy", .bool r.lazy)]

/-- An attached interceptor as a document. -/
def Interceptor.toJson (i : Interceptor) : Json :=
  .object
    [("callable", i.declaration.toJson), ("receivers", Json.ofList QName.toJson i.receivers),
      ("factory_parameter", .number i.factoryParameter),
      ("dependencies", Json.ofList Request.toJson i.dependencies),
      ("resolved_dependencies", Json.ofList NodeId.toJson i.resolved)]

/-- A kind of node as a document. -/
def NodeKind.toJson : NodeKind → Json
  | callable d receivers assisted =>
      .tagged "Callable"
        [("callable", d.toJson), ("receivers", Json.ofList QName.toJson receivers),
          ("assisted_parameters", Json.ofList .number assisted)]
  | function d => .tagged "Function" [("callable", d.toJson)]
  | self => .string "SelfBinding"
  | object => .string "Object"
  | input index => .tagged "Input" [("index", .number index)]
  | provider scope parameters context =>
      .tagged "Provider"
        [("dependency_scope", scope.toJson),
          ("parameters", Json.ofList Ty.toJson parameters),
          ("call_context", .string context.name)]
  | map keys => .tagged "Map" [("keys", Json.ofList MapKey.toJson keys)]
  | set elements => .tagged "Set" [("elements", Json.ofList QName.toJson elements)]
  | childComponent scope parameters =>
      .tagged "ChildComponent"
        [("child_scope", scope.toJson), ("parameters", Json.ofList Ty.toJson parameters)]
  | delegate target => .tagged "Delegate" [("target", target.toJson)]
  | null => .string "Null"
  | missing => .string "Missing"

/-- A node as a document. -/
def Node.toJson (n : Node) : Json :=
  .object
    [("id", n.id.toJson), ("type_ref", n.type.toJson), ("raw_type", n.rawType.toJson),
      ("owner", n.owner.toJson), ("origin", Json.ofOption QName.toJson n.origin),
      ("target_component", Json.ofOption Ty.toJson n.component),
      ("scoped", .bool n.retained), ("eager", .bool n.eager),
      ("callable_kind", .string n.callKind.name), ("is_external", .bool n.external),
      ("dependencies", Json.ofList Request.toJson n.dependencies),
      ("resolved_dependencies", Json.ofList NodeId.toJson n.resolved),
      ("interceptors", Json.ofList Interceptor.toJson n.interceptors),
      ("kind", n.kind.toJson)]

/-- A scope of a plan as a document. -/
def ScopeSummary.toJson (s : ScopeSummary) : Json :=
  .object
    [("id", s.id.toJson), ("name", .string s.name),
      ("parent", Json.ofOption ScopeId.toJson s.parent),
      ("component", Json.ofOption Ty.toJson s.component),
      ("call_context", .string s.context.name), ("inputs", Json.ofList Ty.toJson s.inputs)]

/-- A top-level request as a document. -/
def Root.toJson (r : Root) : Json :=
  .object
    [("scope", r.scope.toJson), ("request", r.request.toJson), ("node", r.node.toJson)]

namespace Plan

/-- A plan as a document. -/
def toJson (p : Plan) : Json :=
  .object
    [("nodes", Json.ofList Node.toJson p.nodes.toList),
      ("scopes", Json.ofList ScopeSummary.toJson p.scopes),
      ("roots", Json.ofList Root.toJson p.roots)]

/-- The text that a plan is exported as. -/
def exportText (p : Plan) : String := p.toJson.render

end Plan
end Wiring
