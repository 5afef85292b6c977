import Wiring.Declaration

/-!
# Candidates

A candidate is one way to satisfy a request, before it becomes a node.
Declarations and inputs are explicit; the other candidates follow from the shape
of the requested type.
-/

namespace Wiring

/-- A declaration that matches a request. -/
structure Match where
  /-- The declaration, substituted for the request. -/
  declaration : Declaration
  /-- The declaration as it was declared. -/
  declared : Declaration
  receivers : List QName
  /-- The type that counts for an exact match. -/
  rawType : Ty
  /-- The request is for a factory that takes the assisted parameters. -/
  assisted : Bool
  /-- The ancestor scope that declares it, or none for the scope itself. -/
  declaredIn : Option ScopeId := none
  deriving DecidableEq

/-- One way to satisfy a request. -/
inductive Candidate where
  /-- A declaration. -/
  | declaration (m : Match)
  /-- An input of the scope, or of the ancestor that declares it. -/
  | input (index : Nat) (type : Ty) (declaredIn : Option ScopeId)
  /-- A singleton object. -/
  | object (type : Ty)
  /-- An invocation of a function alias. -/
  | funAlias (declaration : Declaration) (type : Ty)
  /-- A provider made for a function type. -/
  | provider (type : Ty) (parameters : List Ty) (returns : Ty)
  /-- A set of all contributed elements. -/
  | set (type element : Ty)
  /-- A map of all contributed entries. -/
  | map (type : Ty)
  /-- The component that the scope builds. -/
  | self (type : Ty)
  /-- A factory of a child component. -/
  | childComponent (type : Ty) (parameters : List Ty) (component : Ty)
  deriving DecidableEq

namespace Candidate

/-- The type that counts for an exact match. -/
def rawType : Candidate → Ty
  | declaration m => m.rawType
  | input _ type _ => type
  | object type => type
  | funAlias _ type => type
  | provider type _ _ => type
  | set type _ => type
  | map type => type
  | self type => type
  | childComponent type _ _ => type

/-- Whether the candidate is a declaration or an input. -/
def isExplicit : Candidate → Bool
  | declaration _ => true
  | input .. => true
  | _ => false

/-- How the candidate is reported: by the name of its declaration, or by what
it is. -/
def describe : Candidate → QName
  | declaration m => m.declaration.name
  | funAlias d _ => d.name
  | input index _ _ => ⟨"<input " ++ toString index ++ ">"⟩
  | object _ => ⟨"<object>"⟩
  | provider .. => ⟨"<provider>"⟩
  | set .. => ⟨"<set>"⟩
  | map _ => ⟨"<map>"⟩
  | self _ => ⟨"<component>"⟩
  | childComponent .. => ⟨"<child component>"⟩

/-- Tag an explicit candidate with the ancestor that declares it. -/
def inScope (s : ScopeId) : Candidate → Candidate
  | declaration m => declaration { m with declaredIn := some s }
  | input index type _ => input index type (some s)
  | c => c

/-- The component that a declaration is pinned to. -/
def component? : Candidate → Option Ty
  | declaration m => m.declaration.component
  | _ => none

@[simp] theorem rawType_inScope (s : ScopeId) (c : Candidate) :
    (c.inScope s).rawType = c.rawType := by
  cases c <;> rfl

@[simp] theorem describe_inScope (s : ScopeId) (c : Candidate) :
    (c.inScope s).describe = c.describe := by
  cases c <;> rfl

end Candidate
end Wiring
