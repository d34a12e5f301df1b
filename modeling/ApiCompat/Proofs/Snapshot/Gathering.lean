import ApiCompat.Proofs.Snapshot.Runs

/-! What a run gathers. Inside an open member, a run adds to the member the parameters and thrown
types of the forest and nothing else. Where no member is open, it adds to the open class the members
and interfaces of the forest that are outside its own classes, and declares these classes. -/
namespace ApiCompat

open Markup (Tag Element)

/-- What elements stand for one by one, an element and those inside it one after the other. -/
theorem forall₂_within_node {α : Type} {R : Tag → α → Prop} {shuts : Tag → Bool} {name : String}
    {tag : Tag} {content : List Element} {own inside : List α} (passes : shuts tag = false)
    (first : List.Forall₂ (fun e => R e.tag) (Element.within shuts name [⟨tag, []⟩]) own)
    (others : List.Forall₂ (fun e => R e.tag) (Element.within shuts name content) inside) :
    List.Forall₂ (fun e => R e.tag) (Element.within shuts name [⟨tag, content⟩])
      (own ++ inside) := by
  rw [Element.within_node, passes] at first ⊢
  by_cases here : tag.name = name
  · simp only [here, if_true, Bool.false_eq_true, if_false, Element.within_nil,
      List.append_nil] at first ⊢
    obtain ⟨a, rest, head, tail, rfl⟩ := List.forall₂_cons_left_iff.mp first
    exact .cons head (List.rel_append tail others)
  · simp only [here, if_false, Bool.false_eq_true, Element.within_nil, List.append_nil,
      List.nil_append] at first ⊢
    cases first
    exact others

namespace Parts

def none : Parts := ⟨[], []⟩

def append (g g' : Parts) : Parts :=
  ⟨g.parameters ++ g'.parameters, g.exceptions ++ g'.exceptions⟩

theorem addTo_none (c : Callable) : none.addTo c = c := by
  simp [none, addTo]

theorem addTo_append (g g' : Parts) (c : Callable) :
    (g.append g').addTo c = g'.addTo (g.addTo c) := by
  simp [append, addTo]

namespace Described

variable {scope : Scope} {g g' : Parts} {tag : Tag} {e : Element} {content rest : List Element}

theorem nil : none.Described scope [] := ⟨.nil, .nil⟩

theorem cons (first : g.Described scope [e]) (others : g'.Described scope rest) :
    (g.append g').Described scope (e :: rest) := by
  constructor <;> rw [Element.within_cons]
  · exact List.rel_append first.parameters others.parameters
  · exact List.rel_append first.exceptions others.exceptions

/-- Parts inside an element come after the part that it is. -/
theorem node (passes : tag.opensCallable = false) (own : g.Described scope [⟨tag, []⟩])
    (inside : g'.Described scope content) : (g.append g').Described scope [⟨tag, content⟩] where
  parameters := forall₂_within_node passes own.parameters inside.parameters
  exceptions := forall₂_within_node passes own.exceptions inside.exceptions

theorem other (parameter : tag.name ≠ "parameter") (exception : tag.name ≠ "exception") :
    none.Described scope [⟨tag, []⟩] := by
  constructor <;> simp [Element.within_node, Element.within_nil, none, *]

end Described

end Parts

namespace Holdings

def append (g g' : Holdings) : Holdings :=
  ⟨g.interfaces ++ g'.interfaces, g.methods ++ g'.methods, g.constructors ++ g'.constructors,
    g.fields ++ g'.fields⟩

theorem addTo_none (c : ClassDecl) : none.addTo c = c := by
  simp [none, addTo]

theorem addTo_append (g g' : Holdings) (c : ClassDecl) :
    (g.append g').addTo c = g'.addTo (g.addTo c) := by
  simp [append, addTo]

/-- The classes when the one around a place has gained something. -/
def gained (g : Holdings) (outer : Option ClassId) (classes : List ClassDecl) : List ClassDecl :=
  match outer with
  | some id => classes.modify id g.addTo
  | .none => classes

section Gained

variable {g g' : Holdings} {outer : Option ClassId} {classes more : List ClassDecl}

theorem gained_none (outer : Option ClassId) (classes : List ClassDecl) :
    none.gained outer classes = classes := by
  cases outer with
  | none => rfl
  | some id =>
    rw [gained, funext addTo_none]
    exact List.modify_id id classes

theorem gained_append : (g.append g').gained outer classes =
    g'.gained outer (g.gained outer classes) := by
  cases outer with
  | none => rfl
  | some id =>
    simp only [gained, List.modify_modify_eq]
    exact congrArg (classes.modify id) (funext fun c => addTo_append g g' c)

/-- A class that is there gains the same when others come after it. -/
theorem gained_before (there : ∀ id, outer = some id → id < classes.length) :
    g.gained outer (classes ++ more) = g.gained outer classes ++ more := by
  cases outer with
  | none => rfl
  | some id =>
    have inside := there id rfl
    refine List.ext_getElem? fun i => ?_
    simp only [gained]
    grind

theorem gained_last (c : ClassDecl) :
    g.gained (some classes.length) (classes ++ [c]) = classes ++ [g.addTo c] := by
  refine List.ext_getElem? fun i => ?_
  simp only [gained]
  grind

theorem length_gained : (g.gained outer classes).length = classes.length := by
  cases outer with
  | none => rfl
  | some id => exact List.length_modify _ _ _

end Gained

namespace Described

variable {scope : Scope} {g g' : Holdings} {tag : Tag} {e : Element} {content rest : List Element}

theorem nil : none.Described scope [] := ⟨.nil, .nil, .nil, .nil⟩

theorem cons (first : g.Described scope [e]) (others : g'.Described scope rest) :
    (g.append g').Described scope (e :: rest) := by
  constructor <;> rw [Element.within_cons]
  · exact List.rel_append first.interfaces others.interfaces
  · exact List.rel_append first.methods others.methods
  · exact List.rel_append first.constructors others.constructors
  · exact List.rel_append first.fields others.fields

/-- An element that is no member of the class and opens no class. -/
theorem node (method : tag.name ≠ "method") (constructor : tag.name ≠ "constructor")
    (passes : tag.opensClass = false) (own : g.Described scope [⟨tag, []⟩])
    (inside : g'.Described scope content) : (g.append g').Described scope [⟨tag, content⟩] where
  interfaces := forall₂_within_node passes own.interfaces inside.interfaces
  methods := by
    have none := own.methods
    simp only [Element.within_node, passes, method, if_false, Bool.false_eq_true,
      Element.within_nil, List.append_nil, List.nil_append] at none ⊢
    exact List.rel_append none inside.methods
  constructors := by
    have none := own.constructors
    simp only [Element.within_node, passes, constructor, if_false, Bool.false_eq_true,
      Element.within_nil, List.append_nil, List.nil_append] at none ⊢
    exact List.rel_append none inside.constructors
  fields := forall₂_within_node passes own.fields inside.fields

theorem other (method : tag.name ≠ "method") (constructor : tag.name ≠ "constructor")
    (field : tag.name ≠ "field") (implements : tag.name ≠ "implements") :
    none.Described scope [⟨tag, []⟩] := by
  constructor <;> simp [Element.within_node, Element.within_nil, none, *]

theorem shut (opens : tag.opensClass = true) : none.Described scope [⟨tag, content⟩] := by
  have named : tag.name = "class" ∨ tag.name = "interface" := by
    simpa [Tag.opensClass] using opens
  constructor <;> rcases named with named | named <;>
    simp [Element.within_node, opens, named, none]

end Described

end Holdings

/-- The member with these parts after its own; a field has none. -/
def Member.fill (g : Parts) (member : Member) : Member :=
  (member.updateCallable? g.addTo).getD member

namespace Member

theorem described_addTo {scope : Scope} {tag : Tag} {content : List Element} {c : Callable}
    {g : Parts} (opened : c.Described scope ⟨tag, []⟩)
    (parts : g.Described (c.scope scope) content) : (g.addTo c).Described scope ⟨tag, content⟩ := by
  obtain ⟨parameters, exceptions⟩ := opened.parts
  rw [Element.within_nil, List.forall₂_nil_left_iff] at parameters exceptions
  have complete : (g.addTo c).parts = g := by
    change (⟨c.parts.parameters ++ g.parameters, c.parts.exceptions ++ g.exceptions⟩ : Parts) = g
    rw [parameters, exceptions, List.nil_append, List.nil_append]
  exact ⟨opened.heading, opened.modifiers, opened.deprecated, opened.position, complete.symm ▸ parts⟩

theorem Opened.filled {scope : Scope} {tag : Tag} {content : List Element} {member : Member}
    {g : Parts} (opened : member.Opened scope tag)
    (parts : g.Described (scope.push member.typeParameters) content)
    (rest : Holdings.none.Described scope content) :
    (member.fill g).holdings.Described scope [⟨tag, content⟩] := by
  obtain ⟨interfaces, methods, constructors, fields⟩ := rest
  simp only [Holdings.none, List.forall₂_nil_right_iff] at interfaces methods constructors fields
  cases opened with
  | @method m named described =>
    have filled : Method.Described scope ⟨tag, content⟩ { m with toCallable := g.addTo m.toCallable } :=
      ⟨described_addTo described.callable parts, described.returnType⟩
    constructor <;> simp [Element.within_node, Tag.opensClass, fill, updateCallable?, holdings, *]
  | @constructor c named described =>
    have filled := described_addTo described parts
    constructor <;> simp [Element.within_node, Tag.opensClass, fill, updateCallable?, holdings, *]
  | @field f named described =>
    constructor <;> simp [Element.within_node, Tag.opensClass, fill, updateCallable?, holdings, *]

theorem Opened.ne {scope : Scope} {tag : Tag} {member : Member} (opened : member.Opened scope tag) :
    tag.opensClass = false ∧ tag.name ≠ "package" := by
  cases opened with
  | method named | constructor named | field named => simp [Tag.opensClass, named]

theorem fill_none (member : Member) : member.fill .none = member := by
  cases member <;> simp [fill, updateCallable?, Parts.addTo_none]

theorem fill_append (g g' : Parts) (member : Member) :
    member.fill (g.append g') = (member.fill g).fill g' := by
  cases member <;> simp [fill, updateCallable?, Parts.addTo_append]

theorem typeParameters_fill (g : Parts) (member : Member) :
    (member.fill g).typeParameters = member.typeParameters := by
  cases member <;> rfl

end Member

theorem Markup.Element.classesAll_cons (number : ClassId) (package : Option String)
    (outer : Option ClassId) (e : Element) (rest : List Element) :
    classesAll number package outer (e :: rest) = classesAll number package outer [e] ++
      classesAll (number + (classesAll number package outer [e]).length) package outer rest := by
  simp [classesAll]

namespace Builder

/-- The classes, and which of them are open. -/
def setting (b : Builder) : List ClassDecl × Option ClassId × List (Option ClassId) :=
  (b.snapshot.classes, b.current, b.around)

theorem classScope_congr {b b' : Builder} (same : b'.setting = b.setting) :
    b'.classScope = b.classScope := by
  obtain ⟨⟨_, _⟩, _, _, _, _⟩ := b
  obtain ⟨⟨_, _⟩, _, _, _, _⟩ := b'
  cases same
  rfl

theorem opensClass_of_unknown {tag : Tag} (unknown : ∀ name ∈ known, tag.name ≠ name) :
    tag.opensClass = false := by
  simp [Tag.opensClass, unknown "class" (by decide), unknown "interface" (by decide)]

theorem leave_of_opensClass (b : Builder) {tag : Tag} (opens : tag.opensClass = true) :
    b.leave tag.name = b.leaveClass := by
  have named : tag.name = "class" ∨ tag.name = "interface" := by
    simpa [Tag.opensClass] using opens
  rcases named with named | named <;> rw [named] <;> rfl

theorem leave_of_opened (b : Builder) {scope : Scope} {tag : Tag} {member : Member}
    (opened : member.Opened scope tag) : b.leave tag.name = b.leaveMember := by
  cases opened with
  | method named | constructor named | field named => rw [named]; rfl

theorem leave_of_ne (b : Builder) {name : String} (other : ∀ known ∈ ["package", "class",
    "interface", "method", "constructor", "field"], name ≠ known) : b.leave name = b := by
  unfold leave
  split <;> simp_all

/-- Elements inside an open member only add parts to it. -/
structure Fills (forest : List Element) (b : Builder) (member : Member) (b' : Builder) : Prop where
  setting : b'.setting = b.setting
  package : ∀ name, b'.package = some name → b.package = some name
  parts : ∃ g : Parts, b'.member = some (member.fill g) ∧
    g.Described (b.classScope.push member.typeParameters) forest
  /-- There is no class and no other member in them. -/
  holdings : ∀ scope, Holdings.none.Described scope forest
  declares : ∀ number package outer, Element.classesAll number package outer forest = []

section Fills

variable {b b' entered inner left : Builder} {member : Member} {e : Element} {tag : Tag}
  {content rest : List Element} {own : Parts}

theorem Fills.nil (opened : b.member = some member) : Fills [] b member b where
  setting := rfl
  package := fun _ h => h
  parts := ⟨.none, by rw [member.fill_none, opened], .nil⟩
  holdings := fun _ => .nil
  declares := fun _ _ _ => rfl

theorem Fills.cons (first : Fills [e] b member left)
    (others : ∀ {changed}, left.member = some changed → Fills rest left changed b') :
    Fills (e :: rest) b member b' := by
  obtain ⟨g, filled, described⟩ := first.parts
  have others := others filled
  obtain ⟨g', filled', described'⟩ := others.parts
  rw [classScope_congr first.setting, Member.typeParameters_fill] at described'
  constructor
  · exact others.setting.trans first.setting
  · exact fun name h => first.package name (others.package name h)
  · exact ⟨g.append g', by rw [filled', Member.fill_append], described.cons described'⟩
  · exact fun scope => (first.holdings scope).cons (others.holdings scope)
  · intro number package outer
    rw [Element.classesAll_cons, first.declares, others.declares]
    rfl

/-- An element that opens no class and no member, and what is inside it. -/
theorem Fills.node (inside : Fills content entered (member.fill own) inner)
    (described : own.Described (b.classScope.push member.typeParameters) [⟨tag, []⟩])
    (passes : tag.opensClass = false)
    (ordinary : ∀ name ∈ ["method", "constructor", "field", "implements"], tag.name ≠ name)
    (entering : entered.setting = b.setting) (leaving : left.setting = inner.setting)
    (package : ∀ name, left.package = some name → b.package = some name)
    (kept : left.member = inner.member) : Fills [⟨tag, content⟩] b member left := by
  simp only [List.mem_cons, List.not_mem_nil, or_false, forall_eq_or_imp, forall_eq] at ordinary
  obtain ⟨method, constructor, field, implements⟩ := ordinary
  obtain ⟨g, filled, described'⟩ := inside.parts
  rw [classScope_congr entering, Member.typeParameters_fill] at described'
  constructor
  · exact leaving.trans (inside.setting.trans entering)
  · exact package
  · refine ⟨own.append g, by rw [kept, filled, Member.fill_append], described.node ?_ described'⟩
    simp [Tag.opensCallable, method, constructor]
  · exact fun scope => (Holdings.Described.other method constructor field implements).node
      method constructor passes (inside.holdings scope)
  · intro number package outer
    simp [Element.classesAll, Element.classes, passes, inside.declares]

theorem Builds.fills {forest : List Element} (builds : Builds b forest b')
    (opened : b.member = some member) : Fills forest b member b' := by
  induction builds generalizing member with
  | nil => exact .nil opened
  | @element b entered inner b' tag content rest entering _ _ ihContent ihRest =>
    refine .cons ?_ ihRest
    cases entering with
    | @package name named _ =>
      have inside := ihContent (member.fill_none.symm ▸ opened)
      have described : Parts.none.Described (b.classScope.push member.typeParameters) [⟨tag, []⟩] :=
        .other (by simp [named]) (by simp [named])
      refine inside.node described (by simp [Tag.opensClass, named]) (by simp [named]) ?_ ?_ ?_ ?_
      · simp only [setting, Snapshot.classes_addPackage]
      · rw [named]
        rfl
      · rw [named]
        rintro _ ⟨⟩
      · rw [named]
        rfl
    | declares _ _ free => rw [free] at opened; cases opened
    | opens _ free => rw [free] at opened; cases opened
    | @adds g before changed named there described change =>
      cases there.symm.trans opened
      have same : changed = member.fill g := by
        rw [Member.fill, change]
        rfl
      have inside := ihContent (congrArg some same)
      simp only [memberScope, opened] at described
      rw [inner.leave_of_ne (by rcases named with named | named <;> simp [named])]
      refine inside.node described ?_ ?_ rfl rfl (fun name h => inside.package name h) rfl
      · rcases named with named | named <;> simp [Tag.opensClass, named]
      · rcases named with named | named <;> simp [named]
    | implements _ _ free => rw [free] at opened; cases opened
    | other unknown =>
      have inside := ihContent (member.fill_none.symm ▸ opened)
      have apart {name : String} (listed : name ∈ known) : tag.name ≠ name := unknown name listed
      have described : Parts.none.Described (b.classScope.push member.typeParameters) [⟨tag, []⟩] :=
        .other (apart (by decide)) (apart (by decide))
      rw [inner.leave_of_ne fun name h => apart (by revert name; decide)]
      refine inside.node described (opensClass_of_unknown unknown) ?_ rfl rfl inside.package rfl
      exact fun name h => apart (by revert name; decide)

end Fills

/-- Where no member is open, elements add to the open class and declare classes. The classes are
described as parts of a later snapshot, which says what is around them. -/
structure Adds (later : Snapshot) (home : Option String) (forest : List Element)
    (b b' : Builder) : Prop where
  current : b'.current = b.current
  around : b'.around = b.around
  member : b'.member = none
  package : ∀ name, b'.package = some name → b.package = some name
  classes : ∃ (g : Holdings) (fresh : List ClassDecl),
    b'.snapshot.classes = g.gained b.current b.snapshot.classes ++ fresh ∧
    g.Described (later.scopeAround b.current) forest ∧
    List.Forall₂ (ClassDecl.Described later)
      (Element.classesAll b.snapshot.classes.length home b.current forest) fresh

section Adds

variable {later : Snapshot} {b b' entered inner left : Builder} {home : Option String}
  {e : Element} {tag : Tag} {content rest : List Element} {own : Holdings} {member : Member}

theorem Adds.nil (free : b.member = none) : Adds later home [] b b where
  current := rfl
  around := rfl
  member := free
  package := fun _ h => h
  classes := ⟨.none, [], by simp [Holdings.gained_none], .nil, .nil⟩

theorem Adds.cons (declared : ∀ id, b.current = some id → id < b.snapshot.classes.length)
    (first : Adds later home [e] b left) (others : Adds later home rest left b') :
    Adds later home (e :: rest) b b' := by
  obtain ⟨g, fresh, gained, described, classes⟩ := first.classes
  obtain ⟨g', fresh', gained', described', classes'⟩ := others.classes
  have length : left.snapshot.classes.length = b.snapshot.classes.length + fresh.length := by
    rw [gained, List.length_append, Holdings.length_gained]
  rw [first.current] at gained' described' classes'
  constructor
  · exact others.current.trans first.current
  · exact others.around.trans first.around
  · exact others.member
  · exact fun name h => first.package name (others.package name h)
  · refine ⟨g.append g', fresh ++ fresh', ?_, described.cons described', ?_⟩
    · have there : ∀ id, b.current = some id → id < (g.gained b.current b.snapshot.classes).length := by
        rw [Holdings.length_gained]
        exact declared
      rw [gained', gained, Holdings.gained_before there, Holdings.gained_append, List.append_assoc]
    · rw [Element.classesAll_cons, classes.length_eq, ← length]
      exact List.rel_append classes classes'

theorem Adds.node {home' : Option String} (inside : Adds later home' content entered inner)
    (described : own.Described (later.scopeAround b.current) [⟨tag, []⟩])
    (passes : tag.opensClass = false) (method : tag.name ≠ "method")
    (constructor : tag.name ≠ "constructor")
    (packaged : home' = if tag.name = "package" then tag.attribute? "name" else home)
    (entering : entered.setting = (own.gained b.current b.snapshot.classes, b.current, b.around))
    (leaving : left.setting = inner.setting) (kept : left.member = inner.member)
    (closed : ∀ name, left.package = some name → b.package = some name) :
    Adds later home [⟨tag, content⟩] b left := by
  obtain ⟨g, fresh, gained, described', classes⟩ := inside.classes
  simp only [setting, Prod.mk.injEq] at entering leaving
  obtain ⟨entered, current, around⟩ := entering
  rw [current, entered] at gained classes
  rw [current] at described'
  constructor
  · exact leaving.2.1.trans (inside.current.trans current)
  · exact leaving.2.2.trans (inside.around.trans around)
  · exact kept.trans inside.member
  · exact closed
  · refine ⟨own.append g, fresh, ?_, described.node method constructor passes described', ?_⟩
    · rw [leaving.1, gained, Holdings.gained_append]
    · rw [Holdings.length_gained, packaged] at classes
      simpa [Element.classesAll, Element.classes, passes] using classes

theorem Adds.declare {c : ClassDecl} {id : ClassId} {snapshot : Snapshot}
    (opens : tag.opensClass = true) (packaged : some c.package = home)
    (outer : c.outer = b.current) (headed : c.Headed tag (later.nameAround b.current))
    (bare : c.holdings = .none) (added : b.snapshot.addClass? c = some (id, snapshot))
    (inside : Adds later home content
      { b with snapshot, current := some id, around := b.current :: b.around } inner) :
    Adds later home [⟨tag, content⟩] b (inner.leave tag.name) := by
  obtain ⟨g, fresh, gained, described, classes⟩ := inside.classes
  obtain ⟨rfl, appended⟩ := Snapshot.classes_addClass? added
  have left : inner.leave tag.name = { inner with current := b.current, around := b.around } := by
    rw [leave_of_opensClass inner opens, leaveClass, inside.around]
  rw [left]
  constructor
  · rfl
  · rfl
  · exact inside.member
  · exact inside.package
  · have complete : (g.addTo c).holdings = g := by
      obtain ⟨interfaces, methods, constructors, fields⟩ := Holdings.mk.inj bare
      simp [ClassDecl.holdings, Holdings.addTo, interfaces, methods, constructors, fields]
    have here : (g.addTo c).Described later
        ⟨⟨tag, content⟩, b.snapshot.classes.length, home, b.current⟩ :=
      ⟨packaged, outer, ⟨headed.name, headed.qualifiedName, headed.kind, headed.modifiers,
        headed.deprecated, headed.position, headed.superclass⟩, complete.symm ▸ described⟩
    refine ⟨.none, g.addTo c :: fresh, ?_, .shut opens, ?_⟩
    · simp only [gained, appended, Holdings.gained_last, Holdings.gained_none, List.append_assoc,
        List.singleton_append]
    · rw [appended, List.length_append, List.length_singleton] at classes
      simpa [Element.classesAll, Element.classes, opens] using ⟨here, classes⟩

theorem Fills.adds {id : ClassId} (current : b.current = some id)
    (scope : b.classScope = later.scopeAround b.current) (opened : member.Opened b.classScope tag)
    (inside : Fills content { b with member := some member } member inner) :
    Adds later home [⟨tag, content⟩] b (inner.leave tag.name) := by
  obtain ⟨g, filled, described⟩ := inside.parts
  have setting := inside.setting
  simp only [Builder.setting, Prod.mk.injEq] at setting
  obtain ⟨same, here, stack⟩ := setting
  have left : inner.leave tag.name = { inner with
      snapshot := inner.snapshot.update id (member.fill g).holdings.addTo, member := none } := by
    rw [leave_of_opened inner opened, leaveMember, here, current, filled]
    simp only [Member.addTo_eq]
  rw [left]
  constructor
  · exact here
  · exact stack
  · rfl
  · exact inside.package
  · refine ⟨(member.fill g).holdings, [], ?_, ?_, ?_⟩
    · rw [List.append_nil, current]
      exact congrArg (List.modify · id (member.fill g).holdings.addTo) same
    · rw [← scope]
      exact opened.filled described (inside.holdings _)
    · simp [Element.classesAll, Element.classes, opened.ne, inside.declares]

theorem Builds.adds {forest : List Element} (builds : Builds b forest b') (nested : b.Nested)
    (free : b.member = none) (before : b'.snapshot.Before later)
    (packaged : ∀ name, b.package = some name → home = some name) :
    Adds later home forest b b' := by
  -- Content is in another class or package than its element, so these are not fixed.
  induction builds generalizing home with
  | nil => exact .nil free
  | @element b entered inner b' tag content rest entering content' rest' ihContent ihRest =>
    have nestedEntered := nested.enters entering
    have beforeInner : inner.snapshot.Before later := before_leave.mp (rest'.before.trans before)
    have beforeHere : b.snapshot.Before later :=
      entering.before.trans (content'.before.trans beforeInner)
    have declared : ∀ id, b.current = some id → id ∈ b.snapshot.ids := by
      intro id h
      simpa [Snapshot.outers, Snapshot.mem_ids] using nested.current id h
    have first : Adds later home [⟨tag, content⟩] b (inner.leave tag.name) := by
      cases entering with
      | @package name named read =>
        have inside : Adds later (some name) content _ inner :=
          ihContent nestedEntered free beforeInner fun _ h => h
        have described : Holdings.none.Described (later.scopeAround b.current) [⟨tag, []⟩] :=
          .other (by simp [named]) (by simp [named]) (by simp [named]) (by simp [named])
        refine inside.node described ?_ ?_ ?_ ?_ ?_ ?_ ?_ ?_ <;>
          simp [named, read, Tag.opensClass, setting, Holdings.gained_none,
            Snapshot.classes_addPackage, leave]
      | @declares c id snapshot opens opened _ outer headed bare added =>
        rw [← beforeHere.nameAround declared] at headed
        exact .declare opens (packaged _ opened).symm outer headed bare added
          (ihContent nestedEntered free beforeInner packaged)
      | opens current _ opened =>
        have scope : b.classScope = later.scopeAround b.current :=
          (beforeHere.scopeAround ((Snapshot.nested_iff).mpr nested.outers) declared).symm
        -- The content is inside the member, where only parts are added.
        exact (content'.fills rfl).adds current scope opened
      | adds _ there => rw [there] at free; cases free
      | @implements id ref named current _ implemented =>
        have inside := ihContent nestedEntered free beforeInner packaged
        rw [inner.leave_of_ne (by simp [named])]
        have described : (Holdings.ofInterface ref).Described (later.scopeAround b.current)
            [⟨tag, []⟩] := by
          constructor <;> simp [Element.within_node, Element.within_nil, Holdings.ofInterface,
            named, implemented]
        refine inside.node described ?_ ?_ ?_ ?_ ?_ rfl rfl inside.package
        · simp [Tag.opensClass, named]
        · simp [named]
        · simp [named]
        · simp [named]
        · rw [current]
          rfl
      | other unknown =>
        have inside := ihContent nestedEntered free beforeInner packaged
        have apart {name : String} (listed : name ∈ known) : tag.name ≠ name := unknown name listed
        have described : Holdings.none.Described (later.scopeAround b.current) [⟨tag, []⟩] :=
          .other (apart (by decide)) (apart (by decide)) (apart (by decide)) (apart (by decide))
        rw [inner.leave_of_ne fun name h => apart (by revert name; decide)]
        refine inside.node described (opensClass_of_unknown unknown) (apart (by decide))
          (apart (by decide)) ?_ ?_ rfl rfl inside.package
        · rw [if_neg (apart (by decide))]
        · rw [Holdings.gained_none]
          rfl
    exact first.cons (fun id h => Snapshot.mem_ids.mp (declared id h))
      (ihRest ((content'.nested nestedEntered).leaves (leaves_leave _ _)) first.member before
        fun name h => packaged name (first.package name h))

end Adds

end Builder

end ApiCompat
