import ApiCompat.Proofs.Signature.Links
import ApiCompat.Proofs.Snapshot.Supertypes

/-! Links of declarations. A declaration without its links is the same before and after linking,
and it has the same key, types and texts. Names do not tell links from references by name
either: a reference that linking turns into a link is still known by the name that it had. -/
namespace ApiCompat

section Lists

variable {α β γ δ : Type}

theorem map_map_eq_map {f : α → β} {g : β → γ} {h : α → γ} (same : ∀ a, g (f a) = h a)
    (list : List α) : (list.map f).map g = list.map h := by
  rw [List.map_map]
  exact List.map_congr_left fun a _ => same a

theorem map_map_comm {f : α → β} {g : β → δ} {f' : α → γ} {g' : γ → δ}
    (same : ∀ a, g (f a) = g' (f' a)) (list : List α) :
    (list.map f).map g = (list.map f').map g' := by
  rw [List.map_map, List.map_map]
  exact List.map_congr_left fun a _ => same a

end Lists

def Parameter.unlink (p : Parameter) : Parameter := { p with type := p.type.unlink }

theorem Parameter.unlink_link (find : String → Option ClassId) (p : Parameter) :
    (p.link find).unlink = p.unlink := by
  rw [unlink, link, unlink, Signature.unlink_link]

/-- A callable without links. The thrown types are left out with them. -/
def Callable.unlink (c : Callable) : Callable :=
  { c with
    typeParameters := c.typeParameters.map Signature.unlink
    parameters := c.parameters.map Parameter.unlink
    exceptions := [] }

def Method.unlink (m : Method) : Method :=
  { m with
    toCallable := m.toCallable.unlink
    returnType := m.returnType.unlink }

def Field.unlink (f : Field) : Field := { f with type := f.type.unlink }

namespace Callable

variable {scope : Scope} {c : Callable}

theorem scope_unlink : c.unlink.scope scope.unlink = (c.scope scope).unlink := rfl

theorem key_unlink : c.unlink.key scope.unlink = c.key scope := by
  have types : c.unlink.erasedParameters scope.unlink = c.erasedParameters scope := by
    rw [erasedParameters, erasedParameters, scope_unlink]
    change (c.parameters.map Parameter.unlink).map _ = _
    refine map_map_eq_map (fun p => ?_) _
    exact Signature.erasure_unlink p.type
  rw [key, key, types]
  rfl

theorem parameterText_unlink : c.unlink.parameterText = c.parameterText := by
  have texts : c.unlink.parameters.map (·.type.displayName) =
      c.parameters.map (·.type.displayName) := by
    change (c.parameters.map Parameter.unlink).map _ = _
    refine map_map_eq_map (fun p => ?_) _
    exact Signature.displayName_unlink p.type
  rw [parameterText, parameterText, texts]

theorem unlink_link (find : String → Option ClassId) (c : Callable) :
    (c.link find).unlink = c.unlink := by
  rw [unlink, link, unlink, map_map_eq_map (Parameter.unlink_link find)]

end Callable

theorem Method.unlink_link (find : String → Option ClassId) (m : Method) :
    (m.link find).unlink = m.unlink := by
  rw [unlink, link, unlink, Callable.unlink_link, Signature.unlink_link]

theorem Field.unlink_link (find : String → Option ClassId) (f : Field) :
    (f.link find).unlink = f.unlink := by
  rw [unlink, link, unlink, Signature.unlink_link]

section Alike

variable {scope scope' : Scope}

theorem Callable.key_eq_of_unlink {c d : Callable} (same : c.unlink = d.unlink)
    (scopes : scope.unlink = scope'.unlink) : c.key scope = d.key scope' := by
  rw [← key_unlink, same, scopes, key_unlink]

theorem Callable.parameterText_eq_of_unlink {c d : Callable} (same : c.unlink = d.unlink) :
    c.parameterText = d.parameterText := by
  rw [← parameterText_unlink, same, parameterText_unlink]

theorem Method.returnType_eq_of_unlink {m n : Method} (same : m.unlink = n.unlink)
    (scopes : scope.unlink = scope'.unlink) :
    m.returnType.canonical (m.scope scope) = n.returnType.canonical (n.scope scope') := by
  have parameters : m.typeParameters.map Signature.unlink =
      n.typeParameters.map Signature.unlink :=
    congrArg (fun m : Method => m.typeParameters) same
  have inside : (m.scope scope).unlink = (n.scope scope').unlink := by
    rw [← Callable.scope_unlink, ← Callable.scope_unlink, scopes]
    exact congrArg (Scope.push · scope'.unlink) parameters
  exact Signature.canonical_eq_of_unlink (congrArg Method.returnType same) inside

end Alike

end ApiCompat
