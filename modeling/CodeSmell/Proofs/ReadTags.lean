import CodeSmell.Proofs.Concatenation
import CodeSmell.Proofs.RoundTrip
import CodeSmell.Proofs.Shapes

/-!
# Tags of nodes that are read

A node is meant to be written with its tag behind the opening parenthesis, and blanks and comments
may stand between the two. The machine opens nodes in the order of their parentheses, which is the
order of the nodes in the tree (`Reader.State.tags_step`). The tag of a node is therefore the word
that stands behind its parenthesis, and has at least one character and none that ends a word. There
is one exception: a string literal behind the parenthesis is taken for the first child of a node
with an empty tag. If neither a word nor a string literal follows, the text is refused
(`Tree.read_tagged_unless_quoted`).
-/

set_option autoImplicit false

namespace CodeSmell

open Reader

/-! ## Plain words -/

theorem isDelimiter_eq_false_iff (c : Char) :
    isDelimiter c = false ↔ isBlank c = false ∧ c ∉ ['(', ')', '"', ';'] := by
  simp [isDelimiter, and_assoc]

/-- The text of a symbol or a number is not empty, and has no blanks, parentheses, double quotes or
semicolons. -/
def Atom.IsPlain : Atom → Prop
  | .sym word | .int word | .float word =>
    word ≠ "" ∧ ∀ c ∈ word.toList, isBlank c = false ∧ c ∉ ['(', ')', '"', ';']
  | .str _ | .re _ | .nil => True

theorem plain_ofList {word : List Char} (nonempty : word ≠ [])
    (plain : ∀ c ∈ word, isDelimiter c = false) :
    String.ofList word ≠ "" ∧ ∀ c ∈ (String.ofList word).toList,
      isBlank c = false ∧ c ∉ ['(', ')', '"', ';'] := by
  constructor
  · intro empty
    apply nonempty
    rw [← String.toList_ofList (l := word), empty]
    rfl
  · intro c mem
    rw [String.toList_ofList] at mem
    exact (isDelimiter_eq_false_iff c).1 (plain c mem)

theorem Atom.isPlain_of_writable {a : Atom} (writable : a.Writable) : a.IsPlain := by
  cases writable with
  | word is =>
    have plain := plain_ofList is.nonempty is.plain
    unfold Atom.ofWord
    split
    · trivial
    split
    · exact plain
    split
    · exact plain
    · exact plain
  | string value => trivial
  | regexp is => trivial

/-! ## Tags in pre-order -/

namespace Tree

/-- The tag of a tree that is a node. -/
def tag? : Tree → Option Tag
  | .node tag _ _ => some tag
  | .atom _ => none

/-- The tags of the nodes of a tree, in pre-order. -/
def tags (t : Tree) : List Tag := t.nodes.filterMap tag?

theorem tags_atom (a : Atom) : (atom a).tags = [] := rfl

theorem tags_node (tag : Tag) (line : Int) (cs : List Tree) :
    (node tag line cs).tags = tag :: cs.flatMap tags := by
  rw [tags, nodes, nodesAmong_eq_flatMap, List.filterMap_cons, List.filterMap_flatMap]
  rfl

theorem mem_tags_iff (t : Tree) (tag : Tag) :
    tag ∈ t.tags ↔ ∃ line cs, t.HasPart (.node tag line cs) := by
  rw [tags, List.mem_filterMap]
  constructor
  · rintro ⟨u, mem, is⟩
    cases u with
    | atom a => cases is
    | node _ line cs =>
      cases is
      exact ⟨line, cs, ((mem_nodes_iff t _).1 mem).1⟩
  · rintro ⟨line, cs, part⟩
    exact ⟨_, (mem_nodes_iff t _).2 ⟨part, rfl⟩, rfl⟩

end Tree

namespace Reader

/-! ## Heads -/

/-- The characters of a head, latest first, without a line behind a colon. A colon that nothing
stands in front of belongs to the name. -/
def headName (taken : List Char) : List Char :=
  let before := (taken.dropWhile (· != ':')).drop 1
  if before = [] then taken else before

/-- The tag that a head names, given by its characters, latest first. -/
def headTag (taken : List Char) : Tag := Tag.ofName (Text.ofChars (headName taken).reverse)

theorem ofHead?_eq_some {inherited : Int} {taken : List Char} {f : Frame}
    (found : Frame.ofHead? inherited taken = some f) : f.tag = headTag taken ∧ f.children = [] := by
  unfold Frame.ofHead? at found
  split at found
  next colon c before eq =>
    obtain ⟨line, -, rfl⟩ := Option.map_eq_some_iff.1 found
    simp [headTag, headName, eq]
  next other =>
    cases found
    have alone : (taken.dropWhile (· != ':')).drop 1 = [] := by
      cases eq : taken.dropWhile (· != ':') with
      | nil => rfl
      | cons colon before =>
        cases before with
        | nil => rfl
        | cons c before => exact absurd eq (other colon c before)
    simp [headTag, headName, alone]

theorem headName_ne_nil {taken : List Char} (nonempty : taken ≠ []) : headName taken ≠ [] := by
  simp only [headName]
  split
  · exact nonempty
  next named => exact named

theorem headName_subset (taken : List Char) : headName taken ⊆ taken := by
  simp only [headName]
  split
  · exact List.Subset.refl taken
  · exact List.Subset.trans (List.drop_subset 1 _) (List.dropWhile_subset _)

/-- A head that is a word names a tag that is one. -/
theorem isPlain_headTag {taken : List Char} (nonempty : taken ≠ [])
    (plain : ∀ c ∈ taken, isDelimiter c = false) : (headTag taken).IsPlain := by
  rw [Tag.IsPlain, headTag, Tag.name_ofName, Text.sourceChars_ofChars]
  constructor
  · intro empty
    have none : (headName taken).reverse = [] := Text.ofChars_injective empty
    exact headName_ne_nil nonempty (List.reverse_eq_nil_iff.1 none)
  · intro c mem
    have listed := headName_subset taken (List.mem_reverse.1 mem)
    exact (isDelimiter_eq_false_iff c).1 (plain c listed)

/-- The tag of a head consists of characters. -/
theorem isUtf8_headTag (taken : List Char) : (headTag taken).name.IsUtf8 :=
  ⟨(headName taken).reverse, Tag.name_ofName _⟩

/-! ## The nodes of the machine -/

/-- The tags of an open node and of the nodes in it, in pre-order. -/
def Frame.tags (f : Frame) : List Tag := f.tag :: f.children.reverse.flatMap Tree.tags

variable {s s' : State} {c : Char}

namespace State

/-- The tags of all nodes that the machine has opened, in pre-order. -/
def tags (s : State) : List Tag :=
  s.roots.reverse.flatMap Tree.tags ++ s.frames.reverse.flatMap Frame.tags

@[simp] theorem tags_advance (s : State) (c : Char) : (s.advance c).tags = s.tags := rfl

@[simp] theorem tags_enter (s : State) (mode : Mode) : (s.enter mode).tags = s.tags := rfl

/-- A finished tree is added behind all other nodes. -/
theorem tags_add (s : State) (t : Tree) : (s.add t).tags = s.tags ++ t.tags := by
  unfold add
  split
  next f outer frames => simp [tags, Frame.tags, frames]
  next frames => simp [tags, frames]

@[simp] theorem tags_add_atom (s : State) (a : Atom) : (s.add (.atom a)).tags = s.tags := by
  rw [tags_add, Tree.tags_atom, List.append_nil]

/-- A node that is closed keeps its place in the order. -/
@[simp] theorem tags_close (s : State) : s.close.tags = s.tags := by
  unfold close
  split
  next f outer frames =>
    rw [tags_add, Frame.close, Tree.tags_node]
    simp [tags, Frame.tags, frames]
  next => rfl

/-- A new node comes behind all others. -/
theorem tags_openNode {taken : List Char} (opened : s.openNode taken = .ok s') :
    s'.tags = s.tags ++ [headTag taken] := by
  unfold openNode at opened
  split at opened
  next f found =>
    cases opened
    obtain ⟨tag, empty⟩ := ofHead?_eq_some found
    simp [tags, Frame.tags, tag, empty]
  next => cases opened

theorem Between.tags_eq (between : s.Between c s') : s'.tags = s.tags := by
  cases between <;> simp

theorem Within.tags_eq (within : s.Within c s') : s'.tags = s.tags := by
  cases within <;> simp

/-- The head that a character ends, latest character first. A double quote ends a head that has not
begun. -/
def endedHead? (s : State) (c : Char) : Option (List Char) :=
  match s.mode with
  | .opened => if c = '"' then some [] else none
  | .head taken => if isDelimiter c then some taken else none
  | _ => none

theorem Within.endedHead?_eq_none (within : s.Within c s') : s.endedHead? c = none := by
  unfold endedHead?
  cases within with
  | commentBeforeTag mode is => simp [mode, is]
  | blankBeforeTag mode _ is => simp [mode, ne_of_isBlank is (d := '"') rfl]
  | headStart mode plain =>
    have notQuote : c ≠ '"' := by
      rintro rfl
      cases plain
    simp [mode, notQuote]
  | head mode plain => simp [mode, plain]
  | hiddenInRegexp reads | regexp reads | regexpEnd reads => cases reads <;> simp [*]
  | comment mode | lineEnd mode | word mode | hiddenInString mode | string mode | stringEnd mode =>
    rw [mode]

/-- The node of a head that ends comes behind all others. -/
theorem Ended.tags_eq (ended : s.Ended c s') :
    s'.tags = s.tags ++ (s.endedHead? c).toList.map headTag := by
  unfold endedHead?
  cases ended with
  | nothing mode | word mode | slash mode => simp [mode]
  | noHead mode quote opened => simp [mode, quote, tags_openNode opened]
  | head mode ends opened => simp [mode, ends, tags_openNode opened]

/-- A character opens a node exactly if it ends a head, and the new node comes behind all others. -/
theorem tags_step (stepped : s.step c = .ok s') :
    s'.tags = s.tags ++ (s.endedHead? c).toList.map headTag := by
  rcases step_cases stepped with within | ⟨between, ended, starts⟩
  · rw [within.tags_eq, within.endedHead?_eq_none, Option.toList_none, List.map_nil,
      List.append_nil]
  · rw [starts.tags_eq, ended.tags_eq]

end State

/-! ## From the parenthesis to the head -/

/-- What a mode between an opening parenthesis and the end of a head tells about the mode before it
and the character in between. -/
def Mode.LeadsTo (before : Mode) (c : Char) : Mode → Prop
  | .opened =>
    c = '(' ∨ before = .opened ∧ c ≠ ';' ∧ isBlank c = true ∨ before = .comment true ∧ c = '\n'
  | .comment true => before = .opened ∧ c = ';' ∨ before = .comment true ∧ c ≠ '\n'
  | .head taken =>
    isDelimiter c = false ∧
      (before = .opened ∧ taken = [c] ∨ ∃ earlier, before = .head earlier ∧ taken = c :: earlier)
  | _ => True

namespace State

/-- Of what starts between two elements only a parenthesis leads to a head. -/
theorem Between.leadsTo (before : Mode) (blank : s.mode = .blank) (between : s.Between c s') :
    before.LeadsTo c s'.mode := by
  cases between with
  | opening is => exact Or.inl is
  | blank =>
    rw [advance, blank]
    trivial
  | closing _ inside =>
    have finished : (s.advance c).close.mode = .blank := mode_close inside
    rw [finished]
    trivial
  | comment | quote | slash | word => trivial

theorem Within.leadsTo (within : s.Within c s') : s.mode.LeadsTo c s'.mode := by
  cases within with
  | @comment beforeTag mode other =>
    rw [advance, mode]
    cases beforeTag with
    | false => trivial
    | true => exact Or.inr ⟨rfl, other⟩
  | @lineEnd beforeTag mode is =>
    rw [mode]
    cases beforeTag with
    | false => trivial
    | true => exact Or.inr (Or.inr ⟨rfl, is⟩)
  | commentBeforeTag mode is => exact Or.inl ⟨mode, is⟩
  | blankBeforeTag mode other is =>
    rw [advance, mode]
    exact Or.inr (Or.inl ⟨rfl, other, is⟩)
  | headStart mode plain => exact ⟨plain, Or.inl ⟨mode, rfl⟩⟩
  | head mode plain => exact ⟨plain, Or.inr ⟨_, mode, rfl⟩⟩
  | regexpEnd | stringEnd =>
    rw [mode_add]
    trivial
  | word | hiddenInRegexp | regexp | hiddenInString | string => trivial

/-- Only an opening parenthesis leads to a head, through blanks and comments. -/
theorem leadsTo_step (stepped : s.step c = .ok s') : s.mode.LeadsTo c s'.mode := by
  rcases step_cases stepped with within | ⟨between, ended, starts⟩
  · exact within.leadsTo
  · exact starts.leadsTo s.mode ended.mode_eq

end State

/-! ## Places in a text -/

variable {before : List Char}

/-- The state of the machine behind the characters at the start of a text. -/
def Reached (before : List Char) (s : State) : Prop := before.foldlM State.step {} = .ok s

theorem reached_append_iff (cs : List Char) :
    Reached (before ++ cs) s' ↔ ∃ s, Reached before s ∧ cs.foldlM State.step s = .ok s' := by
  unfold Reached
  rw [List.foldlM_append]
  constructor
  · exact exists_ok_of_bind
  · rintro ⟨s, ran, more⟩
    rw [ran]
    exact more

theorem reached_concat_iff :
    Reached (before ++ [c]) s' ↔ ∃ s, Reached before s ∧ s.step c = .ok s' := by
  rw [reached_append_iff]
  simp only [List.foldlM_cons, List.foldlM_nil, bind_pure]

/-- A parenthesis behind the given characters opens a node: it does not stand in a comment, a string
literal or a regular expression, and there is no parenthesis before it that still lacks a tag. -/
def OpensNode (before : List Char) : Prop :=
  ∃ s s', Reached before s ∧ s.step '(' = .ok s' ∧ s'.mode = .opened

/-- What is left of a text behind the blanks and comments at its start. -/
def behindGap (inComment : Bool) : List Char → List Char
  | [] => []
  | c :: rest =>
    if inComment then behindGap (c ≠ '\n') rest
    else if c = ';' then behindGap true rest
    else if isBlank c then behindGap false rest
    else c :: rest

/-- The characters between an opening parenthesis and its tag are blanks and comments. -/
theorem exists_gap_of_reached (reached : Reached before s) :
    ∀ inComment, s.mode = (if inComment then .comment true else .opened) →
      ∃ outside gap, before = outside ++ '(' :: gap ∧ OpensNode outside ∧
        ∀ rest, behindGap false (gap ++ rest) = behindGap inComment rest := by
  induction before using List.reverseRecOn generalizing s with
  | nil =>
    cases reached
    rintro (_ | _) mode
    · cases mode
    · cases mode
  | append_singleton before c ih =>
    obtain ⟨earlier, came, stepped⟩ := reached_concat_iff.1 reached
    have leads := State.leadsTo_step stepped
    intro inComment mode
    -- one more character of the gap
    have further (inComment' : Bool)
        (was : earlier.mode = if inComment' then .comment true else .opened)
        (taken : ∀ rest, behindGap inComment' (c :: rest) = behindGap inComment rest) :
        ∃ outside gap, before ++ [c] = outside ++ '(' :: gap ∧ OpensNode outside ∧
          ∀ rest, behindGap false (gap ++ rest) = behindGap inComment rest := by
      obtain ⟨outside, gap, rfl, opens, skipped⟩ := ih came inComment' was
      refine ⟨outside, gap ++ [c], by simp, opens, ?_⟩
      intro rest
      rw [List.append_assoc, List.singleton_append, skipped, taken]
    rw [mode] at leads
    cases inComment with
    | false =>
      rcases leads with rfl | ⟨was, noComment, blank⟩ | ⟨was, rfl⟩
      · exact ⟨before, [], rfl, ⟨earlier, s, came, stepped, mode⟩, fun rest => rfl⟩
      · apply further false was
        intro rest
        simp [behindGap, noComment, blank]
      · exact further true was fun rest => rfl
    | true =>
      rcases leads with ⟨was, rfl⟩ | ⟨was, inLine⟩
      · exact further false was fun rest => rfl
      · apply further true was
        intro rest
        simp [behindGap, inLine]

/-- The machine comes through blanks and comments behind an opening parenthesis, up to what follows
them. -/
theorem exists_run_to_behindGap (s : State) (inComment : Bool)
    (mode : s.mode = if inComment then .comment true else .opened) (rest : List Char) :
    ∃ gap s', rest = gap ++ behindGap inComment rest ∧ gap.foldlM State.step s = .ok s' ∧
      (s'.mode = .opened ∨ behindGap inComment rest = [] ∧ s'.mode = .comment true) := by
  induction rest generalizing s inComment with
  | nil =>
    refine ⟨[], s, rfl, rfl, ?_⟩
    cases inComment with
    | false => exact Or.inl mode
    | true => exact Or.inr ⟨rfl, mode⟩
  | cons c rest ih =>
    -- a character of the gap is followed by the rest of it
    have further (next : State) (inComment' : Bool) (stepped : s.step c = .ok next)
        (is : next.mode = if inComment' then .comment true else .opened)
        (taken : behindGap inComment (c :: rest) = behindGap inComment' rest) :
        ∃ gap s', c :: rest = gap ++ behindGap inComment (c :: rest) ∧
          gap.foldlM State.step s = .ok s' ∧
          (s'.mode = .opened ∨
            behindGap inComment (c :: rest) = [] ∧ s'.mode = .comment true) := by
      obtain ⟨gap, s', split, ran, ended⟩ := ih next inComment' is
      rw [taken]
      refine ⟨c :: gap, s', by rw [List.cons_append, ← split], ?_, ended⟩
      rw [List.foldlM_cons, stepped]
      exact ran
    cases inComment with
    | true =>
      by_cases ended : c = '\n'
      · refine further ((s.advance c).enter .opened) false ?_ rfl (by simp [behindGap, ended])
        simp [State.step, mode, ended]
      · refine further (s.advance c) true ?_ mode (by simp [behindGap, ended])
        simp [State.step, mode, ended]
    | false =>
      by_cases comment : c = ';'
      · refine further ((s.advance c).enter (.comment true)) true ?_ rfl
          (by simp [behindGap, comment])
        simp [State.step, mode, comment]
      by_cases blank : isBlank c = true
      · refine further (s.advance c) false ?_ mode (by simp [behindGap, comment, blank])
        simp [State.step, mode, comment, blank]
      · refine ⟨[], s, ?_, rfl, Or.inl mode⟩
        simp [behindGap, comment, blank]

theorem behindGap_eq_cons {inComment : Bool} {rest more : List Char}
    (found : behindGap inComment rest = c :: more) : c ≠ ';' ∧ isBlank c = false := by
  induction rest generalizing inComment with
  | nil => cases found
  | cons first rest ih =>
    rw [behindGap] at found
    split_ifs at found with _ comment blank
    · exact ih found
    · exact ih found
    · exact ih found
    · cases found
      exact ⟨comment, Bool.eq_false_iff.2 blank⟩

/-! ## Tags of the nodes that are opened -/

/-- A head that is being read is a word. -/
theorem plain_of_reached (reached : Reached before s) {taken : List Char}
    (mode : s.mode = .head taken) : taken ≠ [] ∧ ∀ c ∈ taken, isDelimiter c = false := by
  induction before using List.reverseRecOn generalizing s taken with
  | nil =>
    cases reached
    cases mode
  | append_singleton before c ih =>
    obtain ⟨earlier, came, stepped⟩ := reached_concat_iff.1 reached
    have leads := State.leadsTo_step stepped
    rw [mode] at leads
    obtain ⟨plain, ⟨-, rfl⟩ | ⟨taken, was, rfl⟩⟩ := leads
    · exact ⟨List.cons_ne_nil c [], List.forall_mem_singleton.2 plain⟩
    · exact ⟨List.cons_ne_nil c taken, List.forall_mem_cons.2 ⟨plain, (ih came was).2⟩⟩

/-- A character that ends a head opens a node whose tag is a word, unless it is a double quote where
the tag should start. -/
theorem isPlain_or_of_endedHead? (reached : Reached before s) {taken : List Char}
    (ended : s.endedHead? c = some taken) :
    (headTag taken).IsPlain ∨ (headTag taken).name = [] ∧ s.mode = .opened ∧ c = '"' := by
  unfold State.endedHead? at ended
  split at ended
  next mode =>
    split_ifs at ended with quote
    cases ended
    exact Or.inr ⟨Tag.name_ofName [], mode, quote⟩
  next mode =>
    split_ifs at ended
    cases ended
    obtain ⟨nonempty, plain⟩ := plain_of_reached reached mode
    exact Or.inl (isPlain_headTag nonempty plain)
  next => cases ended

/-- The tag of each node that has been opened consists of characters. It is a word, or the node was
opened by a double quote where the tag should start. -/
theorem isPlain_or_of_mem_tags (reached : Reached before s) {tag : Tag} (mem : tag ∈ s.tags) :
    tag.name.IsUtf8 ∧ (tag.IsPlain ∨ tag.name = [] ∧
      ∃ outside rest u, before = outside ++ '"' :: rest ∧ Reached outside u ∧
        u.mode = .opened) := by
  induction before using List.reverseRecOn generalizing s with
  | nil =>
    cases reached
    cases mem
  | append_singleton before c ih =>
    obtain ⟨earlier, came, stepped⟩ := reached_concat_iff.1 reached
    rw [State.tags_step stepped, List.mem_append] at mem
    rcases mem with known | new
    · obtain ⟨spelled, plain | ⟨empty, outside, rest, u, rfl, there, mode⟩⟩ := ih came known
      · exact ⟨spelled, Or.inl plain⟩
      · exact ⟨spelled, Or.inr ⟨empty, outside, rest ++ [c], u, by simp, there, mode⟩⟩
    · obtain ⟨taken, ended, rfl⟩ := List.mem_map.1 new
      refine ⟨isUtf8_headTag taken, ?_⟩
      rcases isPlain_or_of_endedHead? came (Option.mem_toList.1 ended) with plain | quoted
      · exact Or.inl plain
      · obtain ⟨empty, mode, rfl⟩ := quoted
        exact Or.inr ⟨empty, before, [], earlier, rfl, came, mode⟩

/-- Nodes that have been opened stay. -/
theorem tags_prefix_of_run {cs : List Char} (ran : cs.foldlM State.step s = .ok s') :
    s.tags <+: s'.tags := by
  induction cs generalizing s with
  | nil =>
    cases ran
    exact List.prefix_rfl
  | cons c cs ih =>
    rw [List.foldlM_cons] at ran
    obtain ⟨next, stepped, ran⟩ := exists_ok_of_bind ran
    have first : s.tags <+: next.tags := by
      rw [State.tags_step stepped]
      exact List.prefix_append _ _
    exact first.trans (ih ran)

/-- A string literal stands behind a parenthesis that opens a node, in the place of the tag. -/
def HasQuotedHead (source : List Char) : Prop :=
  ∃ before rest, source = before ++ '(' :: rest ∧ OpensNode before ∧
    (behindGap false rest).head? = some '"'

theorem exists_empty_tag_of_quotedHead {source : List Char} (quoted : HasQuotedHead source)
    (reached : Reached source s) : ∃ tag ∈ s.tags, tag.name = [] := by
  obtain ⟨before, rest, rfl, ⟨s₀, s₁, came, stepped, mode⟩, first⟩ := quoted
  obtain ⟨u, came', ran⟩ := (reached_append_iff _).1 reached
  obtain rfl : s₀ = u := Except.ok.inj (came.symm.trans came')
  rw [List.foldlM_cons, stepped] at ran
  obtain ⟨gap, s₂, split, through, ended⟩ := exists_run_to_behindGap s₁ false mode rest
  obtain ⟨more, next⟩ := List.head?_eq_some_iff.1 first
  rw [next] at split ended
  have opened : s₂.mode = .opened := by
    rcases ended with opened | ⟨none, -⟩
    · exact opened
    · cases none
  -- the double quote opens the node
  subst split
  change (gap ++ '"' :: more).foldlM State.step s₁ = .ok s at ran
  rw [List.foldlM_append, through] at ran
  change ('"' :: more).foldlM State.step s₂ = .ok s at ran
  rw [List.foldlM_cons] at ran
  obtain ⟨s₃, quote, ran⟩ := exists_ok_of_bind ran
  refine ⟨headTag [], (tags_prefix_of_run ran).subset ?_, Tag.name_ofName []⟩
  rw [State.tags_step quote, State.endedHead?, opened]
  exact List.mem_append_right _ (List.mem_singleton_self _)

/-- A parenthesis that opens a node and is followed by neither a word nor a string literal is
refused. -/
theorem read_eq_missingTag {rest : List Char} (opens : OpensNode before)
    (noWord : (behindGap false rest).takeWhile (!isDelimiter ·) = [])
    (noQuote : (behindGap false rest).head? ≠ some '"') :
    ∃ position, Tree.read (before ++ '(' :: rest) = .error ⟨position, .missingTag⟩ := by
  obtain ⟨s₀, s₁, came, stepped, mode⟩ := opens
  obtain ⟨gap, s₂, split, through, ended⟩ := exists_run_to_behindGap s₁ false mode rest
  have reached : Reached (before ++ '(' :: gap) s₂ := by
    refine (reached_append_iff _).2 ⟨s₀, came, ?_⟩
    rw [List.foldlM_cons, stepped]
    exact through
  refine ⟨s₂.position, ?_⟩
  rw [split, ← List.cons_append, ← List.append_assoc, Tree.read, List.foldlM_append]
  rw [reached]
  cases next : behindGap false rest with
  | nil =>
    rcases ended with mode | ⟨-, mode⟩
    · change s₂.finish = _
      rw [State.finish, mode]
      rfl
    · change s₂.finish = _
      rw [State.finish, mode]
      rfl
  | cons c more =>
    rw [next] at noWord noQuote ended
    obtain ⟨noComment, noBlank⟩ := behindGap_eq_cons next
    have mode : s₂.mode = .opened := by
      rcases ended with mode | ⟨none, -⟩
      · exact mode
      · cases none
    have parenthesis : c = '(' ∨ c = ')' := by
      have delimits : isDelimiter c = true := by simpa [List.takeWhile_cons] using noWord
      have other : c ≠ '"' := by simpa using noQuote
      simpa [isDelimiter, noComment, noBlank, other] using delimits
    have refused : s₂.step c = .error ⟨s₂.position, .missingTag⟩ := by
      simp [State.step, mode, noComment, noBlank, parenthesis, State.fail]
    change (do (← (c :: more).foldlM State.step s₂).finish) = _
    rw [List.foldlM_cons, refused]
    rfl

end Reader

namespace Tree

theorem mem_tags_bundle {ts : List Tree} {tag : Tag} (mem : tag ∈ ts.flatMap tags) :
    tag ∈ (bundle ts).tags := by
  unfold bundle
  split
  next => simpa using mem
  next =>
    rw [tags_node]
    exact List.mem_cons_of_mem _ mem

theorem eq_block_or_of_mem_tags_bundle {ts : List Tree} {tag : Tag}
    (mem : tag ∈ (bundle ts).tags) : tag = .known .block ∨ tag ∈ ts.flatMap tags := by
  unfold bundle at mem
  split at mem
  next => exact Or.inr (by simpa using mem)
  next =>
    rw [tags_node] at mem
    exact List.mem_cons.1 mem

/-- In every tree that is read the symbols and numbers are words. The tags consist of characters and
are words as well, but for empty ones. There are empty tags exactly if behind some parenthesis that
opens a node a string literal stands in the place of the tag. A parenthesis that opens a node and is
followed by neither a word nor a string literal is refused. -/
theorem read_tagged_unless_quoted (source : List Char) :
    (∀ t, Tree.read source = .ok t →
      (∀ tag line cs, t.HasPart (.node tag line cs) →
        tag.name.IsUtf8 ∧ (tag.IsPlain ∨ tag.name = [])) ∧
      ((∃ tag line cs, t.HasPart (.node tag line cs) ∧ tag.name = []) ↔ HasQuotedHead source) ∧
      ∀ a, t.HasPart (.atom a) → a.IsPlain) ∧
    ∀ before rest, source = before ++ '(' :: rest → OpensNode before →
      (behindGap false rest).takeWhile (!isDelimiter ·) = [] →
      (behindGap false rest).head? ≠ some '"' →
      ∃ position, Tree.read source = .error ⟨position, .missingTag⟩ := by
  refine ⟨fun t read => ?_, ?_⟩
  · obtain ⟨s, reached, -, outside, -, rfl⟩ := read_eq_ok read
    have tags : s.tags = s.roots.reverse.flatMap Tree.tags := by
      rw [State.tags, outside]
      exact List.append_nil _
    have block : (Tag.known .block).IsPlain := by decide
    refine ⟨?_, ⟨?_, ?_⟩, ?_⟩
    · intro tag line cs part
      rcases eq_block_or_of_mem_tags_bundle ((mem_tags_iff _ tag).2 ⟨line, cs, part⟩) with rfl | mem
      · exact ⟨⟨_, rfl⟩, Or.inl block⟩
      · exact (isPlain_or_of_mem_tags reached (tags ▸ mem)).imp_right (Or.imp_right And.left)
    · rintro ⟨tag, line, cs, part, empty⟩
      rcases eq_block_or_of_mem_tags_bundle ((mem_tags_iff _ tag).2 ⟨line, cs, part⟩) with rfl | mem
      · exact absurd empty block.1
      · obtain ⟨-, plain | quoted⟩ := isPlain_or_of_mem_tags reached (tags ▸ mem)
        · exact absurd empty plain.1
        · obtain ⟨-, taken, rest, u, rfl, there, mode⟩ := quoted
          obtain ⟨before, gap, rfl, opens, skipped⟩ := exists_gap_of_reached there false mode
          refine ⟨before, gap ++ '"' :: rest, by simp, opens, ?_⟩
          rw [skipped]
          rfl
    · intro quoted
      obtain ⟨tag, mem, empty⟩ := exists_empty_tag_of_quotedHead quoted reached
      obtain ⟨line, cs, part⟩ := (mem_tags_iff _ tag).1 (mem_tags_bundle (tags ▸ mem))
      exact ⟨tag, line, cs, part, empty⟩
    · intro a part
      exact Atom.isPlain_of_writable (atomsWritable_of_read read a part)
  · rintro before rest rfl opens noWord noQuote
    exact read_eq_missingTag opens noWord noQuote

end Tree

/-- A call whose argument lacks a tag, behind a comment with a parenthesis in it. -/
def quotedArgument : List Char := "(call:2 ; (\n (lvar a) ( \"s\" -7))".toList

/-- The argument has an empty tag, since a string literal stands where the tag should. A closing
parenthesis or the end of the text in the same place is refused. -/
theorem quotedArgument_tags :
    (∃ t, Tree.read quotedArgument = .ok t ∧
      (∃ tag line cs, t.HasPart (.node tag line cs) ∧ tag.name = []) ∧
      (Atom.int "-7").IsPlain) ∧
    (∃ position, Tree.read "(call:2 ( ; \"s\"\n))".toList = .error ⟨position, .missingTag⟩) ∧
    ∃ position, Tree.read "(call:2 ( ; \"s\"".toList = .error ⟨position, .missingTag⟩ := by
  refine ⟨⟨_, rfl, ?_, ?_⟩, ?_, ?_⟩
  · refine ((Tree.read_tagged_unless_quoted quotedArgument).1 _ rfl).2.1.2 ?_
    exact ⟨"(call:2 ; (\n (lvar a) ".toList, " \"s\" -7))".toList, rfl, ⟨_, _, rfl, rfl, rfl⟩, rfl⟩
  · apply ((Tree.read_tagged_unless_quoted quotedArgument).1 _ rfl).2.2
    exact .head (List.mem_cons_of_mem _ List.mem_cons_self)
      (.single (List.mem_cons_of_mem _ List.mem_cons_self))
  · exact (Tree.read_tagged_unless_quoted _).2 "(call:2 ".toList " ; \"s\"\n))".toList rfl
      ⟨_, _, rfl, rfl, rfl⟩ rfl (by decide)
  · exact (Tree.read_tagged_unless_quoted _).2 "(call:2 ".toList " ; \"s\"".toList rfl
      ⟨_, _, rfl, rfl, rfl⟩ rfl (by decide)

/-- A text whose only parenthesis is followed by no word is read as a node with an empty tag. -/
theorem quotedHead_accepted :
    OpensNode [] ∧ (behindGap false "\"s\" x)".toList).takeWhile (!isDelimiter ·) = [] ∧
      Tree.read "(\"s\" x)".toList
        = .ok (.node (Tag.ofName []) 0 [.atom (.str "s"), .atom (.sym "x")]) ∧
      ¬ (Tag.ofName []).IsPlain :=
  ⟨⟨_, _, rfl, rfl, rfl⟩, rfl, rfl, by decide⟩

end CodeSmell
