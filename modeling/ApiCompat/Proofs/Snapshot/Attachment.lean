import ApiCompat.Proofs.Signature.Attachment
import ApiCompat.Proofs.Snapshot.Construction
import ApiCompat.Proofs.Snapshot.Links

/-! Members with copied bounds. A loaded member is the member as written with the declared bounds
copied onto its types, and it has the key and the canonical types of the member as written. -/
namespace ApiCompat

open Markup (Tag Element Spells)

def Parameter.attachBounds (scope : Scope) (p : Parameter) : Parameter :=
  { p with type := p.type.attachBounds scope }

def Callable.attachBounds (classScope : Scope) (c : Callable) : Callable :=
  { c with parameters := c.parameters.map (Parameter.attachBounds (c.scope classScope)) }

def Method.attachBounds (classScope : Scope) (m : Method) : Method :=
  { m with
    toCallable := m.toCallable.attachBounds classScope
    returnType := m.returnType.attachBounds (m.scope classScope) }

theorem Callable.key_attachBounds (classScope : Scope) (c : Callable) :
    (c.attachBounds classScope).key classScope = c.key classScope := by
  have erased : (c.attachBounds classScope).erasedParameters classScope =
      c.erasedParameters classScope := by
    refine map_map_eq_map (fun p => ?_) _
    exact Signature.erasure_attachBounds (c.scope classScope) p.type
  rw [key, key, erased]
  rfl

theorem Method.returnType_attachBounds (classScope : Scope) (m : Method) :
    (m.attachBounds classScope).returnType.canonical ((m.attachBounds classScope).scope classScope) =
      m.returnType.canonical (m.scope classScope) :=
  Signature.canonical_attachBounds (m.scope classScope) m.returnType

/-- The type is what the text spells, bare names read as variables. -/
def Signature.SpelledBy (text : String) (s : Signature) : Prop :=
  ∃ parsed, Signature.parse text = .ok parsed ∧ s = parsed.markVariables isBareName

/-- The types are as they were written, without copied bounds. -/
structure Method.AsSpelled (m : Method) : Prop where
  parameters : ∀ p ∈ m.parameters, p.type.SpelledBy p.typeText
  returnType : ∃ text, m.returnType.SpelledBy text

section Loaded

variable {tag : Tag} {scope classScope : Scope}

theorem exists_written_of_readUse {text : String} {s : Signature}
    (read : tag.readUse scope text = .ok s) :
    ∃ written : Signature, s = written.attachBounds scope ∧ written.SpelledBy text := by
  obtain ⟨parsed, parsing, copied⟩ := ok_of_bind read
  cases copied
  exact ⟨parsed.markVariables Signature.isBareName, rfl, parsed, ok_of_mapError parsing, rfl⟩

theorem Parameter.Described.exists_written {p : Parameter} (described : p.Described scope tag) :
    ∃ q : Parameter, q.type.SpelledBy q.typeText ∧ q.attachBounds scope = p := by
  obtain ⟨written, copied, spelled⟩ := exists_written_of_readUse described.type
  exact ⟨{ p with type := written }, spelled, by rw [attachBounds, ← copied]⟩

theorem exists_map_of_forall_mem {α β : Type} {f : α → β} {good : α → Prop} {list : List β}
    (each : ∀ b ∈ list, ∃ a, good a ∧ f a = b) : ∃ as : List α, (∀ a ∈ as, good a) ∧ as.map f = list := by
  induction list with
  | nil => exact ⟨[], by simp, rfl⟩
  | cons b rest ih =>
    obtain ⟨a, ha, rfl⟩ := each b List.mem_cons_self
    obtain ⟨as, has, rfl⟩ := ih fun c hc => each c (List.mem_cons_of_mem _ hc)
    exact ⟨a :: as, List.forall_mem_cons.mpr ⟨ha, has⟩, rfl⟩

theorem Method.Described.exists_written {e : Element} {m : Method}
    (described : m.Described classScope e) :
    ∃ written : Method, written.AsSpelled ∧ m = written.attachBounds classScope := by
  obtain ⟨text, _, read⟩ := described.returnType
  obtain ⟨returnType, returned, spelled⟩ := exists_written_of_readUse read
  have each : ∀ p ∈ m.parameters, ∃ q : Parameter, q.type.SpelledBy q.typeText ∧
      q.attachBounds (m.scope classScope) = p := by
    intro p hp
    obtain ⟨_, _, read⟩ := exists_of_mem_forall₂ described.callable.parts.parameters hp
    exact read.exists_written
  obtain ⟨parameters, asWritten, copied⟩ := exists_map_of_forall_mem each
  refine ⟨{ m with parameters := parameters, returnType := returnType }, ⟨asWritten, text, spelled⟩, ?_⟩
  change m = { m with
    parameters := parameters.map (Parameter.attachBounds (m.scope classScope))
    returnType := returnType.attachBounds (m.scope classScope) }
  rw [copied, ← returned]

end Loaded

namespace Snapshot

theorem exists_described_method {document : List UInt8} {s : Snapshot}
    (loaded : Snapshot.load document = .ok s) {id : ClassId} {c : ClassDecl}
    (hc : s.class? id = some c) {m : Method} (hm : m ∈ c.methods) :
    ∃ e, m.Described (s.typeScope id) e := by
  obtain ⟨e, described, rfl⟩ := exists_described_class loaded hc
  obtain ⟨inner, _, hinner⟩ := exists_of_mem_forall₂ described.holdings.methods hm
  exact ⟨inner, hinner⟩

/-- Types that carry the declared bounds erase and compare as those that do not, and so do members.
A loaded method is the one that was written, with the declared bounds copied onto its types. -/
theorem attachBounds_invisible :
    (∀ (scope : Scope) (s : Signature), (s.attachBounds scope).erasure scope = s.erasure scope ∧
      (s.attachBounds scope).canonical scope = s.canonical scope) ∧
    (∀ (classScope : Scope) (m : Method),
      (m.attachBounds classScope).key classScope = m.key classScope ∧
      (m.attachBounds classScope).returnType.canonical ((m.attachBounds classScope).scope classScope) =
        m.returnType.canonical (m.scope classScope)) ∧
    ∀ (document : List UInt8) (s : Snapshot), Snapshot.load document = .ok s →
      ∀ id c, s.class? id = some c → ∀ m ∈ c.methods, ∃ written : Method,
        written.AsSpelled ∧ m = written.attachBounds (s.typeScope id) := by
  refine ⟨?_, ?_, ?_⟩
  · intro scope s
    exact ⟨s.erasure_attachBounds scope, s.canonical_attachBounds scope⟩
  · intro classScope m
    exact ⟨Callable.key_attachBounds classScope m.toCallable, m.returnType_attachBounds classScope⟩
  · intro document s loaded id c hc m hm
    obtain ⟨e, described⟩ := exists_described_method loaded hc hm
    exact described.exists_written

/-- A variable whose bound mentions it, used below an array and inside an argument. -/
def comparables : List UInt8 :=
  ("<package name='p'><class name='C&lt;T extends q.Comparable&lt;T>>'><method name='m' return='T[]'>" ++
    "<parameter type='q.List&lt;T>'/></method></class></package>").toUTF8.toList

theorem attachBounds_invisible_comparables : ∃ s c m, Snapshot.load comparables = .ok s ∧
    s.class? 0 = some c ∧ m ∈ c.methods ∧
    ∃ written : Method, written.AsSpelled ∧ m = written.attachBounds (s.typeScope 0) := by
  have accepted : ((Snapshot.load comparables).toOption.bind fun s =>
      (s.class? 0).bind fun c => c.methods.head?).isSome = true := by decide +kernel
  obtain ⟨m, hm⟩ := Option.isSome_iff_exists.mp accepted
  obtain ⟨s, hs, hm⟩ := Option.bind_eq_some_iff.mp hm
  obtain ⟨c, hc, hm⟩ := Option.bind_eq_some_iff.mp hm
  have loaded : Snapshot.load comparables = .ok s := by
    cases outcome : Snapshot.load comparables with
    | error e => simp [outcome, Except.toOption] at hs
    | ok t => simpa [outcome, Except.toOption] using hs
  have member : m ∈ c.methods := List.mem_of_mem_head? hm
  exact ⟨s, c, m, loaded, hc, member, attachBounds_invisible.2.2 comparables s loaded 0 c hc m member⟩

end Snapshot

end ApiCompat
