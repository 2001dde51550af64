import ViewDoc.Proofs.Pieces
import ViewDoc.Proofs.Results

/-!
The HTML of a tree is a page of pieces that spell its outline.

Names of tags and props are the only parts that are not escaped for certain: a tag must be a plain
word, and the name of a prop no markup.
-/

namespace ViewDoc

namespace Html

/-- A prop whose name is escaped; the properties of a style have texts as names. -/
def IsPlainProp (prop : Value × Value) : Prop :=
  (∀ s, prop.1 ≠ .markup s) ∧
    (prop.1.equal (.text "style") = true → ∀ style, prop.2 = .map style →
      ∀ declaration ∈ style, declaration.1.isText = true)

theorem ofValue_of_not_markup {v : Value} (h : ∀ s, v ≠ .markup s) :
    ofValue v = if v.isQuotable then .ok (escape v.plain) else .error .tooManyDigits := by
  cases v with
  | markup s => exact absurd rfl (h s)
  | _ => rfl

theorem attributeName_ne_markup {name : Value} (h : ∀ s, name ≠ .markup s) (s : String) :
    attributeName name ≠ .markup s := by
  rw [attributeName]
  split
  · simp
  · exact h s

theorem attributeText_eq_ok {name v : Value} {s : String} (hname : ∀ s, name ≠ .markup s)
    (h : attributeText name v = .ok s) : ∃ a : Attribute, a.IsQuiet ∧ s.toList = a.chars := by
  have hof : ∀ t, ofValue (attributeName name) = .ok t →
      t.toList = escapeChars (attributeName name).plain.toList := by
    intro t ht
    rw [ofValue_of_not_markup (attributeName_ne_markup hname)] at ht
    split at ht
    · rw [← Except.ok.inj ht]
      simp [escape]
    · cases ht
  simp only [attributeText, bind, pure, Except.pure] at h
  obtain ⟨w, -, h⟩ := bind_eq_ok_iff.1 h
  split at h
  · exact ⟨⟨_, none⟩, ⟨isQuiet_escapeChars _, by simp⟩, hof s h⟩
  · obtain ⟨t, ht, h⟩ := bind_eq_ok_iff.1 h
    obtain ⟨u, -, h⟩ := bind_eq_ok_iff.1 h
    refine ⟨⟨escapeChars (attributeName name).plain.toList, some (escapeChars u.toList)⟩, ?_, ?_⟩
    · exact ⟨isQuiet_escapeChars _, by simp [isQuiet_escapeChars]⟩
    · rw [← Except.ok.inj h]
      simp [hof t ht, escape, Attribute.chars]

theorem attributes_eq_ok {props : Entries} (hprops : ∀ prop ∈ props, IsPlainProp prop)
    {texts : List String} (h : attributes props = .ok texts) :
    ∃ as : List Attribute, (∀ a ∈ as, a.IsQuiet) ∧
      texts.map String.toList = as.map Attribute.chars := by
  induction props generalizing texts with
  | nil =>
    obtain rfl := Except.ok.inj h
    exact ⟨[], by simp⟩
  | cons prop props ih =>
    obtain ⟨name, v⟩ := prop
    have hlaters : ∀ p ∈ props, IsPlainProp p := fun p hp => hprops p (List.mem_cons_of_mem _ hp)
    rw [attributes] at h
    split at h
    · exact ih hlaters h
    · simp only [bind, pure, Except.pure] at h
      obtain ⟨s, hs, h⟩ := bind_eq_ok_iff.1 h
      obtain ⟨later, hlater, h⟩ := bind_eq_ok_iff.1 h
      obtain rfl := Except.ok.inj h
      obtain ⟨a, ha, hchars⟩ := attributeText_eq_ok (hprops _ List.mem_cons_self).1 hs
      obtain ⟨as, has, hrest⟩ := ih hlaters hlater
      exact ⟨a :: as, by simpa using ⟨ha, has⟩, by simp [hchars, hrest]⟩

/-- Blanks between attributes are blanks before each of them. -/
theorem intercalate_blank {texts : List String} (hne : texts ≠ []) :
    ' ' :: (" ".intercalate texts).toList =
      (texts.map String.toList).flatMap fun cs => ' ' :: cs := by
  induction texts with
  | nil => exact absurd rfl hne
  | cons text texts ih =>
    cases texts with
    | nil => simp
    | cons next texts =>
      have ih := ih (List.cons_ne_nil next texts)
      rw [List.map_cons, List.flatMap_cons, ← ih]
      simp

theorem escape_of_isTagName {name : String} (h : IsTagName name) : escape name = name := by
  have hchar : ∀ c ∈ name.toList, escapeChar c = [c] := by
    intro c hc
    have hb := h c hc
    simp only [nameBreakers, List.mem_cons, List.not_mem_nil, or_false, not_or] at hb
    simp [escapeChar, hb]
  have hall : ∀ cs : List Char, (∀ c ∈ cs, escapeChar c = [c]) → escapeChars cs = cs := by
    intro cs hcs
    rw [escapeChars, List.flatMap_congr hcs]
    simp
  rw [escape, hall _ hchar, String.ofList_toList]

theorem opening_eq_ok {tag : String} {props : Entries} (htag : IsTagName tag)
    (hprops : ∀ prop ∈ props, IsPlainProp prop) {s : String} (h : opening tag props = .ok s) :
    ∃ as : List Attribute, (∀ a ∈ as, a.IsQuiet) ∧
      s.toList = '<' :: ((Tag.start tag as).inside ++ ['>']) := by
  simp only [opening, bind, pure, Except.pure, escape_of_isTagName htag] at h
  obtain ⟨texts, ht, h⟩ := bind_eq_ok_iff.1 h
  obtain rfl := Except.ok.inj h
  by_cases hempty : (" ".intercalate texts).isEmpty = true
  -- a single attribute without a name leaves nothing behind the tag's name
  · exact ⟨[], by simp, by simp [hempty, Tag.inside]⟩
  · obtain ⟨as, has, hchars⟩ := attributes_eq_ok hprops ht
    have hne : texts ≠ [] := by
      intro hnil
      simp [hnil] at hempty
    have hblank := intercalate_blank hne
    rw [hchars, List.flatMap_map] at hblank
    refine ⟨as, has, ?_⟩
    rw [Tag.inside, ← hblank]
    simp [hempty]

def tagName (element : Value) : String :=
  if element.shown.isEmpty then "div" else element.shown

theorem isTagName_tagName {element : Value} (h : IsTagName element.shown) :
    IsTagName (tagName element) := by
  rw [tagName]
  split
  · exact isTagName_of_alphanum (by decide)
  · exact h

/-- An element around what is inside; void elements drop it. -/
def Tree.around (tag : String) (inside : List Tree) : Tree :=
  .element tag (if voidElements.contains tag then [] else inside)

/-- Consists of quiet pieces that spell trees. -/
def Prints (html : String) (ts : List Tree) : Prop :=
  ∃ pieces : List Piece, html.toList = pieces.flatMap Piece.chars ∧
    (∀ p ∈ pieces, p.IsQuiet) ∧ Spells ts pieces

theorem prints_empty : Prints "" [] := ⟨[], rfl, by simp, .nil⟩

theorem Prints.append {s t : String} {ts us : List Tree} (h : Prints s ts) (k : Prints t us) :
    Prints (s ++ t) (ts ++ us) := by
  obtain ⟨ps, hs, hps, hts⟩ := h
  obtain ⟨qs, ht, hqs, hus⟩ := k
  refine ⟨ps ++ qs, by simp [hs, ht], ?_, hts.append hus⟩
  intro p hp
  rcases List.mem_append.1 hp with hp | hp
  · exact hps p hp
  · exact hqs p hp

/-- A tag around quiet text and more pieces prints an element. -/
theorem prints_wrap {tag : String} {props : Entries} (htag : IsTagName tag)
    (hprops : ∀ prop ∈ props, IsPlainProp prop) {behind : List Char} (hbehind : IsQuiet behind)
    {s inner html : String} {inside : List Tree} (hinside : Prints s inside)
    (hinner : inner.toList = behind ++ s.toList) (h : wrap tag props inner = .ok html) :
    Prints html [Tree.around tag (Tree.ofText behind ++ inside)] := by
  simp only [wrap, bind, pure, Except.pure, escape_of_isTagName htag] at h
  obtain ⟨start, hstart, h⟩ := bind_eq_ok_iff.1 h
  obtain ⟨as, has, hchars⟩ := opening_eq_ok htag hprops hstart
  have hquiet : (Tag.start tag as).IsQuiet := ⟨htag.isQuiet, has⟩
  rw [Tree.around]
  cases hvoid : voidElements.contains tag with
  | true =>
    rw [hvoid, if_pos rfl] at h
    obtain rfl := Except.ok.inj h
    refine ⟨[⟨.start tag as, []⟩], by simp [hchars, Piece.chars], ?_, .void htag hvoid .nil⟩
    intro p hp
    obtain rfl := List.mem_singleton.1 hp
    exact ⟨hquiet, isQuiet_nil⟩
  | false =>
    rw [hvoid, if_neg Bool.false_ne_true] at h
    rw [if_neg Bool.false_ne_true]
    obtain rfl := Except.ok.inj h
    obtain ⟨pieces, hs, hpieces, hspells⟩ := hinside
    refine ⟨⟨.start tag as, behind⟩ :: (pieces ++ [⟨.stop tag, []⟩]), ?_, ?_,
      .element htag hvoid hspells .nil⟩
    · simp [hchars, hinner, hs, Piece.chars, Tag.inside]
    · intro p hp
      rcases List.mem_cons.1 hp with rfl | hp
      · exact ⟨hquiet, hbehind⟩
      rcases List.mem_append.1 hp with hp | hp
      · exact hpieces p hp
      · obtain rfl := List.mem_singleton.1 hp
        exact ⟨htag.isQuiet, isQuiet_nil⟩

/-- The text that stands for the children of a node without a list of them. -/
def contentText (props : Value) : String :=
  (Entries.get (props.entries?.getD []) "children").shown

mutual

/-- What a reader is to find: tags inside tags, and the texts of nodes without children. -/
def outline : Node → Tree
  | ⟨element, props, none⟩ =>
    Tree.around (tagName element)
      (if (contentText props).isEmpty then [] else [.text (contentText props)])
  | ⟨element, _, some children⟩ => Tree.around (tagName element) (outlines children)

def outlines : List (Option Node) → List Tree
  | [] => []
  | none :: rest => outlines rest
  | some n :: rest => outline n :: outlines rest

end

/-- A tag that is one word, and props that are escaped. -/
structure IsPlainTag (element props : Value) : Prop where
  element_ne_function : element.isFunction = false
  name : IsTagName element.shown
  props : ∃ entries, props = .map entries ∧ ∀ prop ∈ entries, IsPlainProp prop

mutual

/-- All tags of a tree are plain. -/
def IsPlain : Node → Prop
  | ⟨element, props, none⟩ => IsPlainTag element props
  | ⟨element, props, some children⟩ => IsPlainTag element props ∧ ArePlain children

def ArePlain : List (Option Node) → Prop
  | [] => True
  | none :: rest => ArePlain rest
  | some n :: rest => IsPlain n ∧ ArePlain rest

end

theorem tagOf_eq_ok {element : Value} {tag : String} (h : tagOf element = .ok tag) :
    tag = tagName element := by
  obtain ⟨s, hs, rfl⟩ := map_eq_ok_iff.1 h
  rw [Value.shown_of_show? hs, tagName]

/-- With an element that is no function, nothing is called. -/
theorem prints_enclose {call : Value → List Value → Outcome Value} {element props : Value}
    (hplain : IsPlainTag element props) {behind : List Char} (hbehind : IsQuiet behind)
    {s inner html : String} {inside : List Tree} (hinside : Prints s inside)
    (hinner : inner.toList = behind ++ s.toList)
    (h : (enclose call element props inner).result = .ok html) :
    Prints html [Tree.around (tagName element) (Tree.ofText behind ++ inside)] := by
  obtain ⟨entries, rfl, hprops⟩ := hplain.props
  rw [enclose] at h
  rw [hplain.element_ne_function, if_neg Bool.false_ne_true] at h
  simp only [Outcome.result_bind, Outcome.result_liftM] at h
  obtain ⟨tag, ht, h⟩ := bind_eq_ok_iff.1 h
  obtain rfl := tagOf_eq_ok ht
  exact prints_wrap (isTagName_tagName hplain.name) hprops hbehind hinside hinner h

mutual

theorem prints_ofNode (call : Value → List Value → Outcome Value) :
    ∀ (n : Node), IsPlain n → ∀ html, (ofNode call n).result = .ok html → Prints html [outline n]
  | ⟨element, props, none⟩ => by
    intro (hplain : IsPlainTag element props) html h
    obtain ⟨entries, rfl, -⟩ := hplain.props
    simp only [ofNode, Value.entries, Value.entries?, Outcome.result_bind, Outcome.result_liftM,
      ok_bind] at h
    obtain ⟨content, hcontent, h⟩ := bind_eq_ok_iff.1 h
    have hshown : content = contentText (.map entries) := Value.shown_of_show? hcontent
    have hprints := prints_enclose hplain (isQuiet_escapeChars content.toList) prints_empty
      (by simp [escape]) h
    rw [outline, ← hshown, ← Tree.ofText_escapeChars]
    simpa using hprints
  | ⟨element, props, some children⟩ => by
    intro hplain html h
    obtain ⟨htag, hchildren⟩ := hplain
    simp only [ofNode, Outcome.result_bind] at h
    obtain ⟨inner, hinner, h⟩ := bind_eq_ok_iff.1 h
    have hinside := prints_ofNodes call children hchildren inner hinner
    exact prints_enclose htag isQuiet_nil hinside rfl h

theorem prints_ofNodes (call : Value → List Value → Outcome Value) :
    ∀ (children : List (Option Node)), ArePlain children →
      ∀ html, (ofNodes call children).result = .ok html → Prints html (outlines children)
  | [] => by
    intro _ html h
    obtain rfl := Except.ok.inj h
    exact prints_empty
  | none :: rest => by
    intro hplain html h
    have hrest := prints_ofNodes call rest hplain
    simp only [ofNodes, ofNode?, Outcome.result_bind, Outcome.result_pure, ok_bind] at h
    obtain ⟨later, hlater, h⟩ := bind_eq_ok_iff.1 h
    obtain rfl := Except.ok.inj h
    simpa [outlines] using hrest later hlater
  | some n :: rest => by
    intro hplain html h
    obtain ⟨hn, hrest⟩ := hplain
    simp only [ofNodes, ofNode?, Outcome.result_bind, Outcome.result_pure] at h
    obtain ⟨here, hhere, h⟩ := bind_eq_ok_iff.1 h
    obtain ⟨later, hlater, h⟩ := bind_eq_ok_iff.1 h
    obtain rfl := Except.ok.inj h
    have hfirst := prints_ofNode call n hn here hhere
    exact hfirst.append (prints_ofNodes call rest hrest later hlater)

end

end Html
end ViewDoc
