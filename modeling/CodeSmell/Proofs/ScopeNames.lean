import CodeSmell.Proofs.Completion
import CodeSmell.Proofs.Encoding
import CodeSmell.Proofs.ReadAtoms
import CodeSmell.Proofs.Shapes

/-!
# The names of scopes

Modules and classes are meant to be named by a symbol or by a path of constants that ends in one,
and methods by a symbol. The check of a tree lets more pass: it looks at the tag of a path and not
inside, and takes any atom with a text for the name of a method. `Tree.shaped_iff` says exactly what
passes, and `Tree.accepted_names` what follows for the scopes that are opened: the qualified name of
a method is never empty, and that of a module or a class is empty exactly if it is named by a
constant without a name and stands in no namespace with a name.
-/

set_option autoImplicit false

namespace CodeSmell

theorem Text.ofString_eq_nil_iff {s : String} : Text.ofString s = [] ↔ s = "" :=
  @Text.ofString_inj s ""

theorem qualify_eq_nil_iff (owner : Text) {separator : String} (name : Text)
    (visible : separator ≠ "") : qualify owner separator name = [] ↔ owner = [] ∧ name = [] := by
  have shown : Text.ofString separator ≠ [] := fun none => visible (Text.ofString_eq_nil_iff.1 none)
  unfold qualify
  split
  · simp [*]
  · simp [*]

namespace Tree

/-! ## Names -/

/-- A symbol that is not empty. -/
inductive IsSymbol : Tree → Prop
  | sym {name : String} : name ≠ "" → IsSymbol (.atom (.sym name))

/-- A symbol, or a path of constants that ends in one. -/
inductive IsPath : Tree → Prop
  | symbol {t : Tree} : IsSymbol t → IsPath t
  | const {line : Int} {last : Tree} {rest : List Tree} :
    IsSymbol last → IsPath (.known .const line (last :: rest))
  | colon2 {line : Int} {scope last : Tree} {rest : List Tree} :
    IsSymbol last → IsPath (.known .colon2 line (scope :: last :: rest))

/-- A node with the tag of a path that does not end in a symbol. -/
inductive IsOpenPath : Tree → Prop
  | const {line : Int} {cs : List Tree} :
    (∀ last ∈ cs[0]?, ¬ IsSymbol last) → IsOpenPath (.known .const line cs)
  | colon2 {line : Int} {cs : List Tree} :
    (∀ last ∈ cs[1]?, ¬ IsSymbol last) → IsOpenPath (.known .colon2 line cs)

/-- A number, or a string or regular expression that is not empty. -/
inductive IsLiteral : Tree → Prop
  | int {digits : String} : digits ≠ "" → IsLiteral (.atom (.int digits))
  | float {digits : String} : digits ≠ "" → IsLiteral (.atom (.float digits))
  | str {value : Text} : value ≠ [] → IsLiteral (.atom (.str value))
  | re {source : String} : source ≠ "" → IsLiteral (.atom (.re source))

/-- A constant without a name. -/
inductive IsNamelessConst : Tree → Prop
  | const {line : Int} {cs : List Tree} : nameAt cs 0 = [] → IsNamelessConst (.known .const line cs)

/-- A node that opens a named scope, has the slots it has to have, and has a name of the given
sort. -/
def NamedBy (scopeName methodName : Tree → Prop) : Tree → Prop
  | .node (.known .moduleDef) _ cs => ∃ name body, cs = name :: body ∧ scopeName name
  | .node (.known .classDef) _ cs =>
    ∃ name parent body, cs = name :: parent :: body ∧ scopeName name
  | .node (.known .defn) _ cs => ∃ name first body, cs = name :: first :: body ∧ methodName name
  | .node (.known .defs) _ cs => ∃ receiver name first body,
      cs = receiver :: name :: first :: body ∧ receiver.isNode = true ∧ methodName name
  | _ => False

/-- A node that opens a scope with a name of its own. -/
def OpensNamed (t : Tree) : Prop := ∃ kind, t.scopeKind? = some kind ∧ kind.isTransparent = false

theorem namesScope_iff (t : Tree) : NamesScope t ↔ IsPath t ∨ IsOpenPath t := by
  constructor
  · intro names
    cases names with
    | sym nonempty => exact Or.inl (.symbol (.sym nonempty))
    | const line cs =>
      by_cases ends : ∃ last ∈ cs[0]?, IsSymbol last
      · obtain ⟨last, found, symbol⟩ := ends
        cases cs with
        | nil => cases found
        | cons first rest =>
          cases found
          exact Or.inl (.const symbol)
      · exact Or.inr (.const fun last found symbol => ends ⟨last, found, symbol⟩)
    | colon2 line cs =>
      by_cases ends : ∃ last ∈ cs[1]?, IsSymbol last
      · obtain ⟨last, found, symbol⟩ := ends
        rcases cs with _ | ⟨scope, _ | ⟨second, rest⟩⟩
        · cases found
        · cases found
        · cases found
          exact Or.inl (.colon2 symbol)
      · exact Or.inr (.colon2 fun last found symbol => ends ⟨last, found, symbol⟩)
  · rintro (path | openPath)
    · cases path with
      | symbol symbol =>
        cases symbol with
        | sym nonempty => exact .sym nonempty
      | const _ => exact .const _ _
      | colon2 _ => exact .colon2 _ _
    · cases openPath with
      | const _ => exact .const _ _
      | colon2 _ => exact .colon2 _ _

theorem not_isOpenPath_of_isPath {t : Tree} (path : IsPath t) : ¬ IsOpenPath t := by
  intro openPath
  cases path with
  | symbol symbol =>
    cases symbol
    cases openPath
  | const symbol =>
    cases openPath with
    | const without => exact without _ rfl symbol
  | colon2 symbol =>
    cases openPath with
    | colon2 without => exact without _ rfl symbol

theorem namesMethod_iff (t : Tree) : NamesMethod t ↔ IsSymbol t ∨ IsLiteral t := by
  have text {s : String} (nonempty : s ≠ "") : Text.ofString s ≠ [] :=
    fun none => nonempty (Text.ofString_eq_nil_iff.1 none)
  have nonempty {s : String} (text : Text.ofString s ≠ []) : s ≠ "" :=
    fun none => text (Text.ofString_eq_nil_iff.2 none)
  constructor
  · rintro ⟨named⟩
    rename_i a
    cases a with
    | sym name => exact Or.inl (.sym (nonempty named))
    | int digits => exact Or.inr (.int (nonempty named))
    | float digits => exact Or.inr (.float (nonempty named))
    | str value => exact Or.inr (.str named)
    | re source => exact Or.inr (.re (nonempty named))
    | nil => exact absurd rfl named
  · rintro (symbol | literal)
    · cases symbol with
      | sym name => exact .atom (text name)
    · cases literal with
      | int digits => exact .atom (text digits)
      | float digits => exact .atom (text digits)
      | str value => exact .atom value
      | re source => exact .atom (text source)

theorem not_isLiteral_of_isSymbol {t : Tree} (symbol : IsSymbol t) : ¬ IsLiteral t := by
  cases symbol
  exact nofun

/-! ## Sorts of names -/

section Sorts

variable {p p' q q' : Tree → Prop} {t : Tree}

theorem NamedBy.imp (scopes : ∀ name, p name → p' name) (methods : ∀ name, q name → q' name)
    (named : t.NamedBy p q) : t.NamedBy p' q' := by
  unfold NamedBy at named ⊢
  split at named
  · obtain ⟨name, body, rfl, sort⟩ := named
    exact ⟨name, body, rfl, scopes name sort⟩
  · obtain ⟨name, parent, body, rfl, sort⟩ := named
    exact ⟨name, parent, body, rfl, scopes name sort⟩
  · obtain ⟨name, first, body, rfl, sort⟩ := named
    exact ⟨name, first, body, rfl, methods name sort⟩
  · obtain ⟨receiver, name, first, body, rfl, node, sort⟩ := named
    exact ⟨receiver, name, first, body, rfl, node, methods name sort⟩
  · cases named

/-- A node has one name, so sorts that exclude each other do so for nodes as well. -/
theorem not_namedBy_of_disjoint (scopes : ∀ name, p name → ¬ p' name)
    (methods : ∀ name, q name → ¬ q' name) (named : t.NamedBy p q) : ¬ t.NamedBy p' q' := by
  intro other
  unfold NamedBy at named other
  split at named
  · obtain ⟨name, body, rfl, sort⟩ := named
    obtain ⟨_, _, same, sort'⟩ := other
    cases same
    exact scopes name sort sort'
  · obtain ⟨name, parent, body, rfl, sort⟩ := named
    obtain ⟨_, _, _, same, sort'⟩ := other
    cases same
    exact scopes name sort sort'
  · obtain ⟨name, first, body, rfl, sort⟩ := named
    obtain ⟨_, _, _, same, sort'⟩ := other
    cases same
    exact methods name sort sort'
  · obtain ⟨receiver, name, first, body, rfl, node, sort⟩ := named
    obtain ⟨_, _, _, _, same, _, sort'⟩ := other
    cases same
    exact methods name sort sort'
  · cases named

theorem namedBy_or : t.NamedBy (fun name => p name ∨ p' name) (fun name => q name ∨ q' name) ↔
    t.NamedBy p q ∨ t.NamedBy p' q' := by
  unfold NamedBy
  split
  all_goals grind

end Sorts

/-- What is asked of the children of a node that opens a named scope. -/
theorem shaped_iff_namedBy {t : Tree} (opens : t.OpensNamed) :
    t.Shaped ↔ t.NamedBy NamesScope NamesMethod := by
  obtain ⟨kind, found, own⟩ := opens
  unfold scopeKind? at found
  split at found
  all_goals cases found
  -- blocks, conditionals and yields have no name of their own
  all_goals first
    | exact Iff.rfl
    | cases own

/-- A node that opens a named scope passes exactly if it has the slots it has to have and is named
by a symbol or a path, or else by a literal or a path that does not end in a symbol. -/
theorem shaped_iff {t : Tree} (opens : t.OpensNamed) :
    t.Shaped ↔ t.NamedBy IsPath IsSymbol ∨ t.NamedBy IsOpenPath IsLiteral := by
  rw [shaped_iff_namedBy opens, ← namedBy_or]
  simp only [← namesScope_iff, ← namesMethod_iff]

/-! ## Qualified names -/

theorem render_const (line : Int) (cs : List Tree) :
    (known .const line cs).render = .ok (nameAt cs 0) := by
  rw [render_eq]
  simp only [treeText, nodeText, Sketch.nameAt, children, List.map_map]
  congr 2
  exact (List.map_congr_left fun c _ => tree_sketch c).trans (List.map_id cs)

/-- The text of a name is empty exactly if the name is a constant without a name. -/
theorem render_eq_nil_iff {name : Tree} {text : Text} (names : NamesScope name)
    (rendered : name.render = .ok text) : text = [] ↔ IsNamelessConst name := by
  cases names with
  | sym nonempty =>
    rw [render_eq] at rendered
    cases rendered
    exact iff_of_false (fun none => nonempty (Text.ofString_eq_nil_iff.1 none)) nofun
  | const line cs =>
    rw [render_const] at rendered
    cases rendered
    constructor
    · exact .const
    · rintro ⟨none⟩
      exact none
  | colon2 line cs =>
    rw [render_eq] at rendered
    obtain ⟨scope, _, more⟩ := Reader.exists_ok_of_bind rendered
    obtain ⟨last, _, whole⟩ := Reader.exists_ok_of_bind more
    cases whole
    -- the colons are there in any case
    refine iff_of_false (fun none => ?_) nofun
    have colons := (List.append_eq_nil_iff.1 (List.append_eq_nil_iff.1 none).1).2
    cases colons

theorem label_of_opening {kind : ScopeKind} {t : Tree} {o : Opening} (h : opening kind t = .ok o) :
    label kind t = .ok o.label := by
  obtain ⟨l, found, rest⟩ := Reader.exists_ok_of_bind h
  cases rest
  exact found

theorem nameIn_of_nested {o : Opening} {separator : String} {name : Text}
    (labelled : o.label = .nested separator name) (outer : Chain) :
    o.nameIn outer = qualify outer.namespaceName separator name := by
  rw [Opening.nameIn, labelled]

/-- A module or a class has an empty name exactly if it is named by a constant without a name and
there is no name around it. -/
theorem nameIn_eq_nil_iff_of_namespace {kind : ScopeKind} {tag : Tag} {line : Int} {name : Tree}
    {rest : List Tree} {o : Opening} (isNamespace : kind.isNamespace = true)
    (labelled : label kind (.node tag line (name :: rest)) = .ok o.label) (names : NamesScope name)
    (outer : Chain) :
    o.nameIn outer = [] ↔ outer.namespaceName = [] ∧ IsNamelessConst name := by
  have found : label kind (.node tag line (name :: rest))
      = (do return .nested "::" (← name.render)) := by
    cases kind with
    | moduleBody => rfl
    | classBody => rfl
    | _ => cases isNamespace
  rw [found] at labelled
  obtain ⟨text, rendered, whole⟩ := Reader.exists_ok_of_bind labelled
  rw [nameIn_of_nested (Except.ok.inj whole).symm, qualify_eq_nil_iff _ _ (by decide),
    render_eq_nil_iff names rendered]

/-- The name of a singleton method follows that of its owner. -/
theorem exists_qualify_of_singleton {tag : Tag} {line : Int} {cs : List Tree} {o : Opening}
    (labelled : label .singletonMethod (.node tag line cs) = .ok o.label) (outer : Chain) :
    ∃ owner, o.nameIn outer = qualify owner "." (nameAt cs 1) := by
  simp only [label, children] at labelled
  split at labelled
  · split at labelled
    · exact ⟨_, nameIn_of_nested (Except.ok.inj labelled).symm outer⟩
    · obtain ⟨owner, _, whole⟩ := Reader.exists_ok_of_bind labelled
      refine ⟨owner, ?_⟩
      rw [Opening.nameIn, ← Except.ok.inj whole]
  · exact ⟨_, nameIn_of_nested (Except.ok.inj labelled).symm outer⟩

/-- The scope of a node that passes has an empty name exactly if it is a module or a class that is
named by a constant without a name, and there is no name around it. -/
theorem nameIn_eq_nil_iff {t : Tree} {kind : ScopeKind} {o : Opening}
    (named : t.NamedBy NamesScope NamesMethod) (found : t.scopeKind? = some kind)
    (opened : t.opening kind = .ok o) (outer : Chain) :
    o.nameIn outer = [] ↔
      outer.namespaceName = [] ∧ t.NamedBy IsNamelessConst fun _ => False := by
  have labelled := label_of_opening opened
  unfold NamedBy at named
  split at named
  · obtain ⟨name, body, rfl, names⟩ := named
    cases found
    simp [nameIn_eq_nil_iff_of_namespace rfl labelled names, NamedBy]
  · obtain ⟨name, parent, body, rfl, names⟩ := named
    cases found
    simp [nameIn_eq_nil_iff_of_namespace rfl labelled names, NamedBy]
  · obtain ⟨name, first, body, rfl, names⟩ := named
    cases found
    rw [nameIn_of_nested (Except.ok.inj labelled).symm, qualify_eq_nil_iff _ _ (by decide)]
    exact iff_of_false (fun none => (name_ne_nil_iff name).2 names none.2) (by simp [NamedBy])
  · obtain ⟨receiver, name, first, body, rfl, -, names⟩ := named
    cases found
    obtain ⟨owner, qualified⟩ := exists_qualify_of_singleton labelled outer
    rw [qualified, qualify_eq_nil_iff _ _ (by decide)]
    exact iff_of_false (fun none => (name_ne_nil_iff name).2 names none.2) (by simp [NamedBy])
  · cases named

theorem isOpenPath_of_isNamelessConst {t : Tree} (nameless : IsNamelessConst t) : IsOpenPath t := by
  obtain ⟨none⟩ := nameless
  rename_i line cs
  refine .const fun last found symbol => ?_
  cases symbol with
  | sym nonempty =>
    rw [nameAt, Option.mem_def.1 found] at none
    exact nonempty (Text.ofString_eq_nil_iff.1 none)

/-- In a tree that is accepted, a node that opens a named scope is named by a symbol or a path, or
else by a literal or a path that does not end in a symbol. The scope that is opened for it has an
empty name exactly if it is a module or a class that is named by a constant without a name, which is
no path, and there is no name around it. -/
theorem accepted_names {t u : Tree} (accepted : validate (some t) = .ok ()) (part : t.HasPart u)
    {kind : ScopeKind} (opens : u.scopeKind? = some kind) (own : kind.isTransparent = false) :
    (u.NamedBy IsPath IsSymbol ↔ ¬ u.NamedBy IsOpenPath IsLiteral) ∧
      ∀ o outer, u.opening kind = .ok o →
        ((o.scopeIn outer).name = [] ↔
          outer.namespaceName = [] ∧ u.NamedBy IsNamelessConst fun _ => False) ∧
        (u.NamedBy IsPath IsSymbol → (o.scopeIn outer).name ≠ []) := by
  have opensNamed : u.OpensNamed := ⟨kind, opens, own⟩
  have shaped : u.Shaped := (ownDefect?_eq_none_iff u).1
    ((malformed?_eq_none_iff t).1 (validate_eq_ok_iff.1 accepted) u part)
  have exclusive := @not_namedBy_of_disjoint IsPath IsOpenPath IsSymbol IsLiteral u
    (fun _ => not_isOpenPath_of_isPath) (fun _ => not_isLiteral_of_isSymbol)
  refine ⟨⟨exclusive, fun odd => ?_⟩, fun o outer opened => ?_⟩
  · exact ((shaped_iff opensNamed).1 shaped).resolve_right odd
  · have empty := nameIn_eq_nil_iff ((shaped_iff_namedBy opensNamed).1 shaped) opens opened outer
    refine ⟨empty, fun proper none => exclusive proper ?_⟩
    exact (empty.1 none).2.imp (fun _ => isOpenPath_of_isNamelessConst) (fun _ => False.elim)

end Tree

/-- A module that is named by a path, with a method in it. -/
def storeModule : Tree :=
  .known .moduleDef 1 [
    .known .colon2 1 [.known .const 1 [.atom (.sym "Shop")], .atom (.sym "Store")],
    .known .defn 2 [.atom (.sym "total"), .known .ivar 3 [.atom (.sym "@sum")]]]

/-- The module is accepted, and its scope has a name. -/
theorem storeModule_named :
    Tree.validate (some storeModule) = .ok () ∧ storeModule.scopeKind? = some .moduleBody ∧
      ∃ o, storeModule.opening .moduleBody = .ok o ∧ (o.scopeIn [Scope.root]).name ≠ [] := by
  have path : storeModule.NamedBy Tree.IsPath Tree.IsSymbol :=
    ⟨_, _, rfl, .colon2 (.sym (by decide))⟩
  have named := (@Tree.accepted_names storeModule storeModule rfl .refl .moduleBody rfl rfl).2
  exact ⟨rfl, rfl, _, rfl, (named _ [Scope.root] rfl).2 path⟩

/-- A class that is named by a constant without a name, with a method that is named by a number. -/
def numberedMethod : Tree :=
  .known .classDef 0 [.known .const 0 [], .atom .nil,
    .known .defn 0 [.atom (.int "42"), .known .nil 0 []]]

/-- The tree can be read and is accepted. Its method is not named by a symbol, nor its class by a
path, and the scope of the class has no name. -/
theorem numberedMethod_accepted :
    Tree.read "(class (const) nil (defn 42 (nil)))".toList = .ok numberedMethod ∧
      Tree.validate (some numberedMethod) = .ok () ∧
      ¬ numberedMethod.NamedBy Tree.IsPath Tree.IsSymbol ∧
      (∃ u, numberedMethod.HasPart u ∧ u.scopeKind? = some .method ∧
        ¬ u.NamedBy Tree.IsPath Tree.IsSymbol) ∧
      ∃ s outer, s :: outer ∈ numberedMethod.walk.completed ∧ s.kind = .classBody ∧
        s.name = [] := by
  refine ⟨rfl, rfl, ?_, ?_, ?_⟩
  · rintro ⟨_, _, _, same, path⟩
    cases same
    cases path with
    | symbol symbol => cases symbol
  · refine ⟨.known .defn 0 [.atom (.int "42"), .known .nil 0 []], .single ?_, rfl, ?_⟩
    · exact List.mem_cons_of_mem _ (List.mem_cons_of_mem _ List.mem_cons_self)
    · rintro ⟨_, _, _, same, symbol⟩
      cases same
      cases symbol
  · exact ⟨_, _, List.mem_cons_of_mem _ List.mem_cons_self, rfl, rfl⟩

end CodeSmell
