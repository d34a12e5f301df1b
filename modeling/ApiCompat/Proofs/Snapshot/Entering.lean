import ApiCompat.Proofs.Signature.Reading
import ApiCompat.Proofs.Snapshot.Described

/-! What a builder does with one element. A tag that is accepted opens a package, a class or a
member, adds a part to the open member or an interface to the open class, or has another name and
does nothing. Leaving undoes what was opened, and only then a member enters its class. -/
namespace ApiCompat

open Markup (Tag Element Event Spells)

def Parts.addTo (g : Parts) (c : Callable) : Callable :=
  { c with
    parameters := c.parameters ++ g.parameters
    exceptions := c.exceptions ++ g.exceptions }

def Holdings.addTo (g : Holdings) (c : ClassDecl) : ClassDecl :=
  { c with
    interfaces := c.interfaces ++ g.interfaces
    methods := c.methods ++ g.methods
    constructors := c.constructors ++ g.constructors
    fields := c.fields ++ g.fields }

def Holdings.none : Holdings := ⟨[], [], [], []⟩

def Holdings.ofInterface (ref : ClassRef) : Holdings := ⟨[ref], [], [], []⟩

namespace Member

def holdings : Member → Holdings
  | method m => ⟨[], [m], [], []⟩
  | constructor c => ⟨[], [], [c], []⟩
  | field f => ⟨[], [], [], [f]⟩

theorem addTo_eq (member : Member) : member.addTo = member.holdings.addTo := by
  funext c
  cases member <;> simp [addTo, holdings, Holdings.addTo]

/-- The tag opens the member, which is still without parts. -/
inductive Opened (classScope : Scope) (tag : Tag) : Member → Prop where
  | method {m : Method} : tag.name = "method" → m.Described classScope ⟨tag, []⟩ →
      Opened classScope tag (.method m)
  | constructor {c : Constructor} : tag.name = "constructor" →
      Callable.Described classScope ⟨tag, []⟩ c → Opened classScope tag (.constructor c)
  | field {f : Field} : tag.name = "field" → f.Described classScope tag →
      Opened classScope tag (.field f)

end Member

theorem Markup.Element.within_nil (shuts : Tag → Bool) (name : String) :
    within shuts name [] = [] := rfl

theorem Markup.Element.within_cons (shuts : Tag → Bool) (name : String) (e : Element)
    (rest : List Element) :
    within shuts name (e :: rest) = within shuts name [e] ++ within shuts name rest := by
  simp [within, reachAll]

theorem Markup.Element.within_node (shuts : Tag → Bool) (name : String) (tag : Tag)
    (content : List Element) :
    within shuts name [⟨tag, content⟩] = (if tag.name = name then [⟨tag, content⟩] else []) ++
      if shuts tag then [] else within shuts name content := by
  by_cases here : tag.name = name <;> by_cases shut : shuts tag <;>
    simp [within, reachAll, reach, here, shut]

namespace Builder

/-- The names of the elements that descriptions are made of. -/
def known : List String := ["package", "class", "interface", "method", "constructor", "field",
  "parameter", "exception", "implements"]

/-- How a tag that is accepted changes the builder. -/
inductive Enters (b : Builder) (tag : Tag) : Builder → Prop where
  | package {name : String} : tag.name = "package" → tag.attribute? "name" = some name →
      Enters b tag
        { b with snapshot := b.snapshot.addPackage name tag.position, package := some name }
  | declares {c : ClassDecl} {id : ClassId} {snapshot : Snapshot} : tag.opensClass = true →
      b.package = some c.package → b.member = none → c.outer = b.current →
      c.Headed tag (b.snapshot.nameAround b.current) → c.holdings = .none →
      b.snapshot.addClass? c = some (id, snapshot) →
      Enters b tag { b with snapshot, current := some id, around := b.current :: b.around }
  | opens {id : ClassId} {member : Member} : b.current = some id → b.member = none →
      member.Opened b.classScope tag → Enters b tag { b with member := some member }
  | adds {g : Parts} {member changed : Member} : tag.name = "parameter" ∨ tag.name = "exception" →
      b.member = some member → g.Described b.memberScope [⟨tag, []⟩] →
      member.updateCallable? g.addTo = some changed → Enters b tag { b with member := some changed }
  | implements {id : ClassId} {ref : ClassRef} : tag.name = "implements" → b.current = some id →
      b.member = none → ref.Implemented tag →
      Enters b tag { b with snapshot := b.snapshot.update id (Holdings.ofInterface ref).addTo }
  | other : (∀ name ∈ known, tag.name ≠ name) → Enters b tag b

section Enter

variable {b b' : Builder} {tag : Tag}

theorem attribute_of_required {key value : String} (h : tag.required key = .ok value) :
    tag.attribute? key = some value := by
  unfold Tag.required at h
  split at h <;> cases h
  assumption

theorem open_of_receivingClass {id : ClassId} (h : b.receivingClass tag = .ok id) :
    b.current = some id ∧ b.member = none := by
  unfold receivingClass at h
  split at h
  · cases h
    exact ⟨‹_›, ‹_›⟩
  · cases h

theorem enters_of_enterPackage (named : tag.name = "package") (h : b.enterPackage tag = .ok b') :
    b.Enters tag b' := by
  obtain ⟨name, hname, hout⟩ := ok_of_bind h
  cases hout
  exact .package named (attribute_of_required hname)

theorem enters_of_enterClass {kind : ClassKind} (opening : tag.opensClass = true)
    (kinded : kind = if tag.name = "interface" then .interface else .plain)
    (h : b.enterClass tag kind = .ok b') : b.Enters tag b' := by
  unfold enterClass at h
  split at h
  · cases h
  · rename_i package opened
    split at h
    · cases h
    · rename_i free
      obtain ⟨⟨bare, typeParameters⟩, read, rest⟩ := ok_of_bind h
      dsimp only at rest
      split at rest
      · cases rest
      · rename_i id snapshot added
        cases rest
        refine .declares opening opened (by simpa using free) rfl ?_ rfl added
        refine ⟨⟨bare, read, ?_⟩, rfl, kinded, rfl, rfl, rfl, rfl⟩
        unfold Snapshot.nameAround
        cases b.current.bind b.snapshot.class? <;> rfl

theorem enters_of_enterMethod (named : tag.name = "method") (h : b.enterMethod tag = .ok b') :
    b.Enters tag b' := by
  obtain ⟨id, received, h⟩ := ok_of_bind h
  obtain ⟨⟨name, typeParameters⟩, heading, h⟩ := ok_of_bind h
  obtain ⟨text, written, h⟩ := ok_of_bind h
  obtain ⟨returnType, read, h⟩ := ok_of_bind h
  cases h
  obtain ⟨current, free⟩ := open_of_receivingClass received
  refine .opens current free (.method named ⟨⟨heading, rfl, rfl, rfl, ?_⟩, text, written, read⟩)
  exact ⟨.nil, .nil⟩

theorem enters_of_enterConstructor (named : tag.name = "constructor")
    (h : b.enterConstructor tag = .ok b') : b.Enters tag b' := by
  obtain ⟨id, received, h⟩ := ok_of_bind h
  obtain ⟨⟨name, typeParameters⟩, heading, h⟩ := ok_of_bind h
  cases h
  obtain ⟨current, free⟩ := open_of_receivingClass received
  exact .opens current free (.constructor named ⟨heading, rfl, rfl, rfl, .nil, .nil⟩)

theorem enters_of_enterField (named : tag.name = "field") (h : b.enterField tag = .ok b') :
    b.Enters tag b' := by
  obtain ⟨id, received, h⟩ := ok_of_bind h
  obtain ⟨name, heading, h⟩ := ok_of_bind h
  obtain ⟨text, written, h⟩ := ok_of_bind h
  obtain ⟨type, read, h⟩ := ok_of_bind h
  cases h
  obtain ⟨current, free⟩ := open_of_receivingClass received
  exact .opens current free (.field named ⟨heading, rfl, rfl, rfl, ⟨text, written, read⟩, rfl⟩)

theorem enters_of_updateMember {change : Callable → Callable} {g : Parts}
    (named : tag.name = "parameter" ∨ tag.name = "exception")
    (described : g.Described b.memberScope [⟨tag, []⟩]) (same : change = g.addTo)
    (h : b.updateMember tag change = .ok b') : b.Enters tag b' := by
  unfold updateMember at h
  split at h
  · rename_i changed update
    cases h
    obtain ⟨member, opened, hchange⟩ := Option.bind_eq_some_iff.mp update
    exact .adds named opened described (same ▸ hchange)
  · cases h

theorem enters_of_enterParameter (named : tag.name = "parameter")
    (h : b.enterParameter tag = .ok b') : b.Enters tag b' := by
  obtain ⟨text, written, h⟩ := ok_of_bind h
  obtain ⟨type, read, h⟩ := ok_of_bind h
  let p : Parameter := ⟨(tag.attribute? "name").getD "", text, type⟩
  have described : p.Described b.memberScope tag := ⟨rfl, written, read⟩
  have part : Parts.Described b.memberScope [⟨tag, []⟩] ⟨[p], []⟩ := by
    constructor <;> simp [Element.within_node, Element.within_nil, named, described]
  refine enters_of_updateMember (.inl named) part ?_ h
  funext c
  simp [Parts.addTo, p]

theorem enters_of_enterException (named : tag.name = "exception")
    (h : b.enterException tag = .ok b') : b.Enters tag b' := by
  obtain ⟨text, written, h⟩ := ok_of_bind h
  have thrown : ClassRef.Thrown tag (.named (eraseArguments text)) := ⟨text, written, rfl⟩
  have part : Parts.Described b.memberScope [⟨tag, []⟩] ⟨[], [.named (eraseArguments text)]⟩ := by
    constructor <;> simp [Element.within_node, Element.within_nil, named, thrown]
  refine enters_of_updateMember (.inr named) part ?_ h
  funext c
  simp [Parts.addTo]

theorem enters_of_enterInterfaceName (named : tag.name = "implements")
    (h : b.enterInterfaceName tag = .ok b') : b.Enters tag b' := by
  obtain ⟨id, received, h⟩ := ok_of_bind h
  obtain ⟨text, written, h⟩ := ok_of_bind h
  cases h
  obtain ⟨current, free⟩ := open_of_receivingClass received
  have added : (fun c : ClassDecl => { c with interfaces := c.interfaces ++
      [.named (eraseArguments text)] }) = (Holdings.ofInterface (.named (eraseArguments text))).addTo := by
    funext c
    simp [Holdings.addTo, Holdings.ofInterface]
  rw [added]
  exact .implements named current free ⟨text, written, rfl⟩

theorem enters_of_enter (h : b.enter tag = .ok b') : b.Enters tag b' := by
  unfold enter at h
  split at h
  · exact enters_of_enterPackage ‹_› h
  · exact enters_of_enterClass (by simp [Tag.opensClass, *]) (by simp [*]) h
  · exact enters_of_enterClass (by simp [Tag.opensClass, *]) (by simp [*]) h
  · exact enters_of_enterMethod ‹_› h
  · exact enters_of_enterConstructor ‹_› h
  · exact enters_of_enterField ‹_› h
  · exact enters_of_enterParameter ‹_› h
  · exact enters_of_enterException ‹_› h
  · exact enters_of_enterInterfaceName ‹_› h
  · cases h
    exact .other (by simp_all [known])

end Enter

/-- How the end of an element changes the builder. -/
inductive Leaves (b : Builder) : Builder → Prop where
  | package : Leaves b { b with package := none }
  | outermost : b.around = [] → Leaves b { b with current := none }
  | inner {outer : Option ClassId} {rest : List (Option ClassId)} : b.around = outer :: rest →
      Leaves b { b with current := outer, around := rest }
  | member {id : ClassId} {member : Member} : b.current = some id → b.member = some member →
      Leaves b { b with snapshot := b.snapshot.update id member.holdings.addTo, member := none }
  | noMember : Leaves b { b with member := none }
  | other : Leaves b b

theorem leaves_leaveClass (b : Builder) : b.Leaves b.leaveClass := by
  unfold leaveClass
  split
  · exact .outermost ‹_›
  · exact .inner ‹_›

theorem leaves_leaveMember (b : Builder) : b.Leaves b.leaveMember := by
  unfold leaveMember
  split
  · rw [Member.addTo_eq]
    exact .member ‹_› ‹_›
  · exact .noMember

theorem leaves_leave (b : Builder) (name : String) : b.Leaves (b.leave name) := by
  unfold leave
  split
  · exact .package
  · exact leaves_leaveClass b
  · exact leaves_leaveClass b
  · exact leaves_leaveMember b
  · exact leaves_leaveMember b
  · exact leaves_leaveMember b
  · exact .other

/-- The builder runs over a forest, element by element. -/
inductive Builds : Builder → List Element → Builder → Prop where
  | nil (b : Builder) : Builds b [] b
  | element {b entered inner b' : Builder} {tag : Tag} {content rest : List Element} :
      b.Enters tag entered → Builds entered content inner →
      Builds (inner.leave tag.name) rest b' → Builds b (⟨tag, content⟩ :: rest) b'

theorem builds_of_run {forest : List Element} {events : List Event} (spelled : Spells forest events)
    {b b' : Builder} (run : events.foldlM step b = .ok b') : Builds b forest b' := by
  induction spelled generalizing b b' with
  | nil =>
    cases run
    exact .nil b
  | @void tag rest events _ ih =>
    rw [List.foldlM_cons] at run
    obtain ⟨next, done, run⟩ := ok_of_bind run
    obtain ⟨entered, entering, left⟩ := ok_of_bind done
    cases left
    exact .element (enters_of_enter entering) (.nil entered) (ih run)
  | @node tag content rest inner events _ _ ihContent ihRest =>
    rw [List.foldlM_cons] at run
    obtain ⟨entered, entering, run⟩ := ok_of_bind run
    rw [List.foldlM_append] at run
    obtain ⟨before, filled, run⟩ := ok_of_bind run
    rw [List.foldlM_cons] at run
    obtain ⟨left, done, run⟩ := ok_of_bind run
    cases done
    exact .element (enters_of_enter entering) (ihContent filled) (ihRest run)

/-- What is kept by entering and leaving elements is kept by a run. -/
theorem Builds.preserves {P : Builder → Prop}
    (enter : ∀ {b b' : Builder} {tag : Tag}, P b → b.Enters tag b' → P b')
    (leave : ∀ {b b' : Builder}, P b → b.Leaves b' → P b')
    {b b' : Builder} {forest : List Element} (builds : Builds b forest b') (start : P b) : P b' := by
  induction builds with
  | nil => exact start
  | @element b entered inner b' tag content rest entering _ _ ihContent ihRest =>
    have filled : P inner := ihContent (enter start entering)
    exact ihRest (leave filled (leaves_leave inner tag.name))

theorem exists_run_of_load {document : List UInt8} {s : Snapshot}
    (loaded : Snapshot.load document = .ok s) : ∃ forest b,
      Spells forest (Markup.read document).events ∧
      run (Markup.read document).events = .ok b ∧ b.snapshot = s := by
  obtain ⟨b, ran, complete⟩ := ok_of_bind loaded
  split at complete
  · cases complete
  · rename_i faultless
    cases complete
    obtain ⟨forest, spelled⟩ := Markup.exists_forest faultless
    exact ⟨forest, b, spelled, ran, rfl⟩

end Builder

end ApiCompat
