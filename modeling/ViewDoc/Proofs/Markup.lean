import ViewDoc.Proofs.Printing

/-!
What a reader finds in the HTML of a tree.

Printing a plain tree can only fail over a number with too many digits, and what it prints is read
back as the outline of the tree, with no other tags in it.
-/

namespace ViewDoc

namespace Value

mutual

theorem isShowable_of_isQuotable : ∀ (v : Value), v.isQuotable = true → v.isShowable = true
  | list items | tuple items => areShowable_of_areQuotable items
  | null | bool _ | int _ | float _ | text _ | markup _ | map _ | date _ | dateTime _ | time _
  | zone _ | function .. | object .. | model .. | rendered .. => by simp [isShowable]

theorem areShowable_of_areQuotable : ∀ (vs : List Value), areQuotable vs = true →
    areShowable vs = true
  | [] => fun _ => rfl
  | v :: vs => by
    intro h
    simp only [areQuotable, Bool.and_eq_true] at h
    simp [areShowable, isShowable_of_isQuotable v h.1, areShowable_of_areQuotable vs h.2]

end

theorem isQuotable_of_not_showable {v : Value} (h : v.isShowable = false) :
    v.isQuotable = false := by
  by_contra hq
  rw [Bool.not_eq_false] at hq
  rw [isShowable_of_isQuotable v hq] at h
  cases h

theorem isQuotable_get {entries : Entries} (h : entriesQuotable entries = true) (name : String) :
    (entries.get name).isQuotable = true := by
  induction entries with
  | nil => rfl
  | cons e rest ih =>
    obtain ⟨k, v⟩ := e
    simp only [entriesQuotable, Bool.and_eq_true] at h
    unfold Entries.get Table.get? Table.find? at ih ⊢
    by_cases hk : k.equal (.text name) = true
    · simpa [hk] using h.1.2
    · simpa [hk] using ih h.2

end Value

namespace Html

theorem declarations_eq_error {style : Entries} (hstyle : ∀ d ∈ style, d.1.isText = true)
    {f : Failure} (h : declarations style = .error f) :
    f = .tooManyDigits ∧ Value.entriesQuotable style = false := by
  induction style with
  | nil => cases h
  | cons d style ih =>
    obtain ⟨name, v⟩ := d
    have hname : ∃ s, kebabValue name = .ok s := by
      have htext : name.isText = true := hstyle _ List.mem_cons_self
      obtain ⟨s, hs⟩ := Option.isSome_iff_exists.1 htext
      exact ⟨kebab s, by simp [kebabValue, hs]⟩
    have ih := ih fun d hd => hstyle d (List.mem_cons_of_mem _ hd)
    rw [declarations] at h
    split at h
    · obtain ⟨hf, hq⟩ := ih h
      exact ⟨hf, by simp [Value.entriesQuotable, hq]⟩
    · obtain ⟨s, hs⟩ := hname
      simp only [bind, pure, Except.pure, hs, ok_bind] at h
      rcases bind_eq_error_iff.1 h with h | ⟨text, -, h⟩
      · obtain ⟨hf, hv⟩ := Value.show?_eq_error_iff.1 h
        exact ⟨hf, by simp [Value.entriesQuotable, Value.isQuotable_of_not_showable hv]⟩
      · rcases bind_eq_error_iff.1 h with h | ⟨later, -, h⟩
        · obtain ⟨hf, hq⟩ := ih h
          exact ⟨hf, by simp [Value.entriesQuotable, hq]⟩
        · cases h

theorem equal_style_of_attributeName {name : Value}
    (h : (attributeName name).equal (.text "style") = true) :
    name.equal (.text "style") = true := by
  rw [attributeName] at h
  split at h
  · rw [Value.equal_text] at h
    exact absurd h (by decide)
  · exact h

theorem attributeValue_eq_error {prop : Value × Value} (hprop : IsPlainProp prop) {f : Failure}
    (h : attributeValue (attributeName prop.1) prop.2 = .error f) :
    f = .tooManyDigits ∧ prop.2.isQuotable = false := by
  unfold attributeValue at h
  split at h
  · rename_i style hv
    split at h
    · rename_i hname
      obtain ⟨hf, hq⟩ := declarations_eq_error
        (hprop.2 (equal_style_of_attributeName hname) style hv)
        (map_eq_error_iff.1 (map_eq_error_iff.1 h))
      exact ⟨hf, by rwa [hv, Value.isQuotable]⟩
    · cases h
  · cases h

theorem attributeValue_eq_ok {name v w : Value} (h : attributeValue name v = .ok w) :
    w = v ∨ ∃ s, w = .text s := by
  unfold attributeValue at h
  split at h
  · split at h
    · obtain ⟨s, -, rfl⟩ := map_eq_ok_iff.1 h
      exact .inr ⟨s, rfl⟩
    · exact .inl (Except.ok.inj h).symm
  · exact .inl (Except.ok.inj h).symm

theorem ofValue_attributeName_eq_error {name : Value} (hname : ∀ s, name ≠ .markup s)
    {f : Failure} (h : ofValue (attributeName name) = .error f) :
    f = .tooManyDigits ∧ name.isQuotable = false := by
  rw [attributeName] at h
  split at h
  · cases h
  · rw [ofValue_of_not_markup hname] at h
    split at h
    · cases h
    · rename_i hq
      exact ⟨(Except.error.inj h).symm, Bool.eq_false_iff.2 hq⟩

theorem attributeText_eq_error {prop : Value × Value} (hprop : IsPlainProp prop) {f : Failure}
    (h : attributeText prop.1 prop.2 = .error f) :
    f = .tooManyDigits ∧ (prop.1.isQuotable = false ∨ prop.2.isQuotable = false) := by
  have hname {f : Failure} (h : ofValue (attributeName prop.1) = .error f) :
      f = .tooManyDigits ∧ (prop.1.isQuotable = false ∨ prop.2.isQuotable = false) := by
    obtain ⟨hf, hq⟩ := ofValue_attributeName_eq_error hprop.1 h
    exact ⟨hf, .inl hq⟩
  simp only [attributeText, bind, pure, Except.pure] at h
  rcases bind_eq_error_iff.1 h with h | ⟨w, hw, h⟩
  · obtain ⟨hf, hq⟩ := attributeValue_eq_error hprop h
    exact ⟨hf, .inr hq⟩
  split at h
  · exact hname h
  · rcases bind_eq_error_iff.1 h with h | ⟨s, -, h⟩
    · exact hname h
    rcases bind_eq_error_iff.1 h with h | ⟨t, -, h⟩
    · obtain ⟨hf, hs⟩ := Value.show?_eq_error_iff.1 h
      rcases attributeValue_eq_ok hw with rfl | ⟨t, rfl⟩
      · exact ⟨hf, .inr (Value.isQuotable_of_not_showable hs)⟩
      · cases hs
    · cases h

theorem attributes_eq_error {props : Entries} (hprops : ∀ prop ∈ props, IsPlainProp prop)
    {f : Failure} (h : attributes props = .error f) :
    f = .tooManyDigits ∧ Value.entriesQuotable props = false := by
  induction props with
  | nil => cases h
  | cons prop props ih =>
    have ih := ih fun p hp => hprops p (List.mem_cons_of_mem _ hp)
    have hlater (h : attributes props = .error f) :
        f = .tooManyDigits ∧ Value.entriesQuotable (prop :: props) = false := by
      obtain ⟨hf, hq⟩ := ih h
      exact ⟨hf, by simp [Value.entriesQuotable, hq]⟩
    rw [attributes] at h
    split at h
    · exact hlater h
    · simp only [bind, pure, Except.pure] at h
      rcases bind_eq_error_iff.1 h with h | ⟨s, -, h⟩
      · obtain ⟨hf, hq⟩ := attributeText_eq_error (hprops prop List.mem_cons_self) h
        refine ⟨hf, ?_⟩
        rcases hq with hq | hq <;> simp [Value.entriesQuotable, hq]
      rcases bind_eq_error_iff.1 h with h | ⟨later, -, h⟩
      · exact hlater h
      · cases h

theorem wrap_eq_error {tag inner : String} {props : Entries}
    (hprops : ∀ prop ∈ props, IsPlainProp prop) {f : Failure}
    (h : wrap tag props inner = .error f) :
    f = .tooManyDigits ∧ Value.entriesQuotable props = false := by
  simp only [wrap, opening, bind, pure, Except.pure] at h
  rcases bind_eq_error_iff.1 h with h | ⟨start, -, h⟩
  · rcases bind_eq_error_iff.1 h with h | ⟨texts, -, h⟩
    · exact attributes_eq_error hprops h
    · cases h
  · split at h
    · cases h
    · cases h

theorem enclose_eq_error {call : Value → List Value → Outcome Value} {element props : Value}
    (hplain : IsPlainTag element props) {inner : String} {f : Failure}
    (h : (enclose call element props inner).result = .error f) :
    f = .tooManyDigits ∧ (element.isQuotable && props.isQuotable) = false := by
  obtain ⟨entries, rfl, hprops⟩ := hplain.props
  rw [enclose] at h
  rw [hplain.element_ne_function, if_neg Bool.false_ne_true] at h
  simp only [Outcome.result_bind, Outcome.result_liftM] at h
  rcases bind_eq_error_iff.1 h with h | ⟨tag, -, h⟩
  · obtain ⟨hf, hs⟩ := Value.show?_eq_error_iff.1 (map_eq_error_iff.1 h)
    exact ⟨hf, by simp [Value.isQuotable_of_not_showable hs]⟩
  · obtain ⟨hf, hq⟩ := wrap_eq_error hprops h
    exact ⟨hf, by simp [Value.isQuotable, hq]⟩

mutual

theorem ofNode_eq_error (call : Value → List Value → Outcome Value) {f : Failure} :
    ∀ (n : Node), IsPlain n → (ofNode call n).result = .error f →
      f = .tooManyDigits ∧ n.toValue.isQuotable = false
  | ⟨element, props, none⟩ => by
    intro (hplain : IsPlainTag element props) h
    obtain ⟨entries, rfl, -⟩ := hplain.props
    simp only [ofNode, Value.entries, Value.entries?, Outcome.result_bind, Outcome.result_liftM,
      ok_bind] at h
    rcases bind_eq_error_iff.1 h with h | ⟨content, -, h⟩
    · obtain ⟨hf, hs⟩ := Value.show?_eq_error_iff.1 h
      have hq : Value.entriesQuotable entries = false := by
        by_contra hq
        rw [Bool.not_eq_false] at hq
        have hget := Value.isQuotable_get hq "children"
        rw [Value.isQuotable_of_not_showable hs] at hget
        cases hget
      exact ⟨hf, by simp [Node.toValue, Value.isQuotable, hq]⟩
    · obtain ⟨hf, hq⟩ := enclose_eq_error hplain h
      exact ⟨hf, by simp [Node.toValue, Value.isQuotable.eq_def (.rendered ..), hq]⟩
  | ⟨element, props, some children⟩ => by
    intro hplain h
    obtain ⟨htag, hchildren⟩ := hplain
    simp only [ofNode, Outcome.result_bind] at h
    rcases bind_eq_error_iff.1 h with h | ⟨inner, -, h⟩
    · obtain ⟨hf, hq⟩ := ofNodes_eq_error call children hchildren h
      exact ⟨hf, by simp [Node.toValue, Value.isQuotable, hq]⟩
    · obtain ⟨hf, hq⟩ := enclose_eq_error htag h
      exact ⟨hf, by simp [Node.toValue, Value.isQuotable.eq_def (.rendered ..), hq]⟩

theorem ofNodes_eq_error (call : Value → List Value → Outcome Value) {f : Failure} :
    ∀ (children : List (Option Node)), ArePlain children →
      (ofNodes call children).result = .error f →
      f = .tooManyDigits ∧ Value.areQuotable (Node.toValues children) = false
  | [] => by
    intro _ h
    cases h
  | none :: rest => by
    intro hplain h
    simp only [ofNodes, ofNode?, Outcome.result_bind, Outcome.result_pure, ok_bind] at h
    rcases bind_eq_error_iff.1 h with h | ⟨later, -, h⟩
    · obtain ⟨hf, hq⟩ := ofNodes_eq_error call rest hplain h
      exact ⟨hf, by simp [Node.toValues, Value.areQuotable, hq]⟩
    · cases h
  | some n :: rest => by
    intro hplain h
    obtain ⟨hn, hrest⟩ := hplain
    simp only [ofNodes, ofNode?, Outcome.result_bind, Outcome.result_pure] at h
    rcases bind_eq_error_iff.1 h with h | ⟨here, -, h⟩
    · obtain ⟨hf, hq⟩ := ofNode_eq_error call n hn h
      exact ⟨hf, by simp [Node.toValues, Value.areQuotable, hq]⟩
    rcases bind_eq_error_iff.1 h with h | ⟨later, -, h⟩
    · obtain ⟨hf, hq⟩ := ofNodes_eq_error call rest hrest h
      exact ⟨hf, by simp [Node.toValues, Value.areQuotable, hq]⟩
    · cases h

end

/-- The HTML of a plain tree is its own tags around quiet text, and is read back as its outline. -/
theorem read_ofNode (call : Value → List Value → Outcome Value) (n : Node) (hplain : IsPlain n) :
    (∀ f, (ofNode call n).result = .error f →
      f = .tooManyDigits ∧ n.toValue.isQuotable = false) ∧
    ∀ html, (ofNode call n).result = .ok html →
      (∃ pieces : List Piece, html.toList = pieces.flatMap Piece.chars ∧
        (∀ p ∈ pieces, p.IsQuiet) ∧ (pieces.map fun p => p.tag.word) = (outline n).words) ∧
      read html.toList = some [outline n] := by
  refine ⟨fun f h => ofNode_eq_error call n hplain h, ?_⟩
  intro html h
  obtain ⟨pieces, hchars, hquiet, hspells⟩ := prints_ofNode call n hplain html h
  have hwords : Tree.wordsAll [outline n] = (outline n).words := by simp [Tree.wordsAll]
  refine ⟨⟨pieces, hchars, hquiet, hspells.words.trans hwords⟩, ?_⟩
  rw [hchars]
  exact read_of_spells hspells hquiet

theorem read_ofNode_page :
    let call : Value → List Value → Outcome Value := fun _ _ => .fail .notCallable
    let break' : Node := ⟨.text "br", .map [(.text "children", .text "dropped")], none⟩
    let text : Node := ⟨.text "", .map [(.text "children", .text "1 < 2 & \x22x\x22")], none⟩
    let page : Node := ⟨.text "section", .map [(.text "className", .markup "a\x22b"),
      (.text "hidden", .bool true)], some [some break', none, some text]⟩
    let html := "<section class=\"a&#34;b\" hidden>" ++
      "<br><div>1 &lt; 2 &amp; &#34;x&#34;</div></section>"
    IsPlain page ∧ (ofNode call page).result = .ok html ∧
      read html.toList = some [.element "section" [.element "br" [],
        .element "div" [.text "1 < 2 & \x22x\x22"]]] := by
  intro call break' text page html
  have hname {v : Value} (h : (v.shown.toList.all fun c => c.isAlphanum || c == '-') = true)
      (hf : v.isFunction = false) {props : Entries} (hprops : ∀ p ∈ props, IsPlainProp p) :
      IsPlainTag v (.map props) :=
    ⟨hf, isTagName_of_alphanum h, props, rfl, hprops⟩
  have hplain : IsPlain page := by
    refine ⟨hname (by decide) rfl ?_, ?_, ?_, trivial⟩
    · simp [IsPlainProp]
    · exact hname (by decide) rfl (by simp [IsPlainProp])
    · exact hname (by decide) rfl (by simp [IsPlainProp])
  have hhtml : (ofNode call page).result = .ok html := rfl
  exact ⟨hplain, hhtml, ((read_ofNode call page hplain).2 html hhtml).2⟩

end Html
end ViewDoc
