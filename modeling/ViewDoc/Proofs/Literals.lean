import ViewDoc.Proofs.Effects
import ViewDoc.Proofs.KeyedForms
import ViewDoc.Proofs.Numerals
import ViewDoc.Proofs.SplitPaths
import ViewDoc.Proofs.Validation

/-!
Values that are written as selectors of their own and resolved again.

A literal comes back as what it is, whichever way its selector is written. Only texts and numbers
are touched by the options: they are converted first, and what is still a text or number then goes
between the affixes.
-/

namespace ViewDoc

open List (Forall₂)

namespace Accumulator

/-- A single body is what comes out. -/
theorem finish_step_start (v : Value) : (start.step v).bind finish = .ok v := by
  cases hn : v.isNull with
  | true =>
    cases v with
    | null => rfl
    | _ => cases hn
  | false =>
    cases ho : v.isObject with
    | true =>
      rw [step_object ho]
      rfl
    | false =>
      have hstep : start.step v = .ok (collecting [v]) := by simp [start, step, hn, ho]
      rw [hstep]
      rfl

end Accumulator

namespace Outcome

theorem liftM_bind_liftM {α β : Type} (x : Except Failure α) (f : α → Except Failure β) :
    ((liftM x : Outcome α) >>= fun a => (liftM (f a) : Outcome β)) = liftM (x.bind f) := by
  cases x <;> rfl

end Outcome

namespace Variable

/-- One level says what the whole variable is. -/
theorem resolve_singleton {v : Value} {level : Entries} (hwire : v.wire = .ok (.list [.map level]))
    (h : (Value.map level).isSelector = true) (c : Clock) (roots : Entries) :
    resolve c roots v = Level.said c roots (.map level) := by
  have hlevels : levels? (.list [.map level]) = some [.map level] := by
    simp [levels?, Value.items?, h]
  have := Outcome.lawful
  simp only [resolve, hwire, Outcome.liftM_ok_bind, hlevels, resolveLevels, h, Bool.not_true,
    Bool.false_eq_true, if_false, bind_assoc, pure_bind, Outcome.liftM_bind_liftM,
    Accumulator.finish_step_start]
  exact bind_pure _

end Variable

namespace Level

/-- The text of an option; none is an empty one. -/
def optionText (level : Entries) (name : String) : String := (level.get name).text?.getD ""

/-- The format that is asked for. -/
def formatOf (level : Entries) : Option FormatKind :=
  (level.get "format").text?.bind FormatKind.ofName?

/-- Options as they have to be: affixes are texts or null, and a format is one of the four kinds. -/
structure HasOptions (level : Entries) : Prop where
  before : (level.get "prefix").isNull = true ∨ (level.get "prefix").isText = true
  behind : (level.get "suffix").isNull = true ∨ (level.get "suffix").isText = true
  format : (level.get "format").isNull = true ∨ Model.IsFormatName (level.get "format")

/-- A text or number is converted, and what still is one goes between the affixes, if there are any;
everything else stays as it is. -/
def literalOutcome (c : Clock) (kind : Option FormatKind) (before behind : String) (v : Value) :
    Outcome Value := do
  if !v.isTextOrNumber then return v
  let w ← kind.elim (pure v) fun k => Format.applyKind c k v
  if !w.isTextOrNumber || before.isEmpty && behind.isEmpty then return w
  return .text (before ++ (← w.show?) ++ behind)

theorem concat_before {a : Value} {s : String} (h : a.text? = some s) (w : Value) :
    concat a w = w.show?.map fun t => .text (s ++ t) := by
  rw [concat, Value.show?_of_text? h]
  cases w.show? <;> rfl

theorem concat_behind {a : Value} {s : String} (h : a.text? = some s) (w : Value) :
    concat w a = w.show?.map fun t => .text (t ++ s) := by
  rw [concat, Value.show?_of_text? h]
  cases w.show? <;> rfl

/-- An affix counts if it is a text and not empty. -/
theorem truthy_of_option {a : Value} (h : a.isNull = true ∨ a.isText = true) :
    a.truthy = !(a.text?.getD "").isEmpty := by
  cases a <;> simp_all [Value.isNull, Value.isText, Value.truthy, Value.text?]

theorem text?_of_option {a : Value} (h : a.isNull = true ∨ a.isText = true)
    (ht : (a.text?.getD "").isEmpty = false) : a.text? = some (a.text?.getD "") := by
  cases a <;> simp_all [Value.isNull, Value.isText, Value.text?]

theorem affix_of_hasOptions {level : Entries} (h : HasOptions level) (w : Value) :
    affix level w =
      if (optionText level "prefix").isEmpty && (optionText level "suffix").isEmpty then .ok w
      else w.show?.map fun s =>
        .text (optionText level "prefix" ++ s ++ optionText level "suffix") := by
  have hbefore := truthy_of_option h.before
  have hbehind := truthy_of_option h.behind
  rw [affix_eq, optionText, optionText]
  cases hp : ((level.get "prefix").text?.getD "").isEmpty with
  | true =>
    rw [hp] at hbefore
    rw [String.isEmpty_iff.1 hp]
    cases hs : ((level.get "suffix").text?.getD "").isEmpty with
    | true => simp [hbefore, hbehind, hs]
    | false => simp [hbefore, hbehind, hs, concat_behind (text?_of_option h.behind hs)]
  | false =>
    have hconcat := concat_before (text?_of_option h.before hp) w
    rw [hp] at hbefore
    cases hs : ((level.get "suffix").text?.getD "").isEmpty with
    | true =>
      rw [String.isEmpty_iff.1 hs]
      cases hw : w.show? <;> simp [hbefore, hbehind, hs, hconcat, hw]
    | false =>
      have hlast := concat_behind (text?_of_option h.behind hs)
      cases hw : w.show? <;> simp [hbefore, hbehind, hs, hconcat, hlast, hw, Value.show?_text]

theorem convert_of_hasOptions {level : Entries} (h : HasOptions level) (c : Clock) (v : Value) :
    convert c level v = (formatOf level).elim (pure v) fun k => Format.applyKind c k v := by
  rw [formatOf, convert]
  rcases h.format with hn | ⟨name, hmem, hname⟩
  · cases hk : level.get "format" with
    | null => rfl
    | _ =>
      rw [hk] at hn
      cases hn
  · simp only [Model.formatNames, List.mem_cons, List.not_mem_nil, or_false] at hmem
    have htruthy : (level.get "format").truthy = true := by
      have hfull : name ≠ "" := by
        rcases hmem with rfl | rfl | rfl | rfl <;> decide
      cases hk : level.get "format" <;> simp_all [Value.text?, Value.truthy]
    rw [if_pos htruthy, Format.apply, hname]
    rcases hmem with rfl | rfl | rfl | rfl
    · rfl
    · rfl
    · rfl
    · rfl

theorem said_of_literal {level : Entries} (h : HasOptions level)
    (hroot : level.get "root" = .null) (c : Clock) (roots : Entries) :
    said c roots (.map level) = literalOutcome c (formatOf level) (optionText level "prefix")
      (optionText level "suffix") (level.get "keys") := by
  have hbody : body roots level = .ok (level.get "keys") := by
    simp [body, hroot, Value.text?, Value.isNull]
  have := Outcome.lawful
  have hsaid : said c roots (.map level) = format c level (level.get "keys") := by
    change ((liftM (body roots level) : Outcome Value) >>= fun v => format c level v) = _
    rw [hbody]
    exact pure_bind _ _
  rw [hsaid, format, literalOutcome, convert_of_hasOptions h]
  split
  · rfl
  · refine congrArg _ (funext fun w => ?_)
    rw [affix_of_hasOptions h]
    cases w.isTextOrNumber with
    | false => rfl
    | true =>
      simp only [Bool.not_true, Bool.false_eq_true, if_false, Bool.false_or]
      split
      · rfl
      · cases w.show? <;> rfl

/-- Levels that ask for the same format and affixes. -/
def SameOptions (a b : Entries) : Prop :=
  ∀ name ∈ ["prefix", "suffix", "format"],
    (b.get name).text? = (a.get name).text? ∧ (b.get name).isNull = (a.get name).isNull

variable {level more : Entries}

theorem HasOptions.congr (h : HasOptions more) (same : SameOptions more level) :
    HasOptions level := by
  constructor
  · obtain ⟨htext, hnull⟩ := same "prefix" (by simp)
    rw [Value.isText, htext, hnull]
    exact h.before
  · obtain ⟨htext, hnull⟩ := same "suffix" (by simp)
    rw [Value.isText, htext, hnull]
    exact h.behind
  · obtain ⟨htext, hnull⟩ := same "format" (by simp)
    rw [Model.IsFormatName, htext, hnull]
    exact h.format

/-- A level without a root that asks for the same as some options. -/
theorem resolve_of_sameOptions (h : HasOptions more) (same : SameOptions more level) {v : Value}
    (hwire : v.wire = .ok (.list [.map level])) (hselector : (Value.map level).isSelector = true)
    (hroot : level.get "root" = .null) (c : Clock) (roots : Entries) :
    Variable.resolve c roots v = literalOutcome c (formatOf more)
      (optionText more "prefix") (optionText more "suffix") (level.get "keys") := by
  rw [Variable.resolve_singleton hwire hselector, said_of_literal (h.congr same) hroot, formatOf,
    formatOf, optionText, optionText, optionText, optionText, (same "format" (by simp)).1,
    (same "prefix" (by simp)).1, (same "suffix" (by simp)).1]

end Level

namespace Model

open Level (HasOptions SameOptions bare)

variable {room : Nat} {entries more : Entries} {f : Field} {taken : String × Option Value}

theorem keyIn?_of_name_eq (hkey : f.name = f.key) (entries : Entries) :
    f.keyIn? entries = (Table.get? entries f.key).map fun _ => f.key := by
  rw [Field.keyIn?, Table.contains_text, Table.contains_text, hkey]
  cases Table.get? entries f.key <;> rfl

/-- A field that is named as its key comes from what is there, if that passes its rule. -/
theorem taken_iff_of_name_eq (hkey : f.name = f.key) {o : Option Value} :
    Taken room entries f (f.name, o) ↔ match Table.get? entries f.key with
      | none => f.required = false ∧ o = none
      | some v => ∃ w, check room f.rule v = .ok w ∧ o = some w := by
  rw [Taken, keyIn?_of_name_eq hkey]
  cases hv : Table.get? entries f.key with
  | none => simp
  | some v => simp [hv]

/-- What is null or a text passes as what it is. -/
theorem option_of_check {v w : Value} (hrule : f.rule = .optionalText ∨ f.rule = .format)
    (h : check room f.rule v = .ok w) : w.text? = v.text? ∧ w.isNull = v.isNull := by
  have hsame {s : String} (hs : v.text? = some s) :
      (Value.text s).text? = v.text? ∧ (Value.text s).isNull = v.isNull := by
    refine ⟨hs.symm, ?_⟩
    cases v with
    | null => cases hs
    | _ => rfl
  generalize f.rule = rule at hrule h
  cases passes_of_check h with
  | null => exact ⟨rfl, rfl⟩
  | optionalText hs => exact hsame hs
  | format hs => exact hsame hs
  | _ => simp at hrule

theorem isSelectorMap_literal (v : Value) (h : HasOptions more) :
    IsSelectorMap (bare .null v ++ more) := by
  have hget {name : String} {x : Value} (hx : Table.get? more name = some x) :
      Entries.get more name = x := by
    rw [Entries.get, hx]
    rfl
  refine ⟨⟨.null, rfl, .inl rfl⟩, ⟨v, rfl⟩, ?_, ?_, ?_⟩
  · intro x hx
    exact hget hx ▸ h.before
  · intro x hx
    exact hget hx ▸ h.behind
  · intro x hx
    exact hget hx ▸ h.format

/-- A literal is made of its value and the options beside it. -/
theorem exists_literal (v : Value)
    (hnames : ∀ e ∈ more, ∃ s, e.1.text? = some s ∧ s ∉ literalNames) (h : HasOptions more) :
    ∃ room taken, literal v more = .ok (ofFields .selector taken []) ∧
      Forall₂ (Taken room (bare .null v ++ more)) (declared .selector) taken := by
  have hfree : more.any (fun e => e.1.text?.elim true literalNames.contains) = false := by
    apply Bool.eq_false_iff.2
    intro hany
    obtain ⟨e, he, hname⟩ := List.any_eq_true.1 hany
    obtain ⟨s, hs, hno⟩ := hnames e he
    rw [hs] at hname
    exact hno (List.contains_iff_mem.1 hname)
  have hform : IsSelectorForm (.map (bare .null v ++ more)) := isSelectorMap_literal v h
  obtain ⟨m, hm⟩ := accepts_selector_iff.2 hform
  obtain ⟨taken, extra, htaken, hkept, rfl⟩ := check_entries_eq_ok_iff.1 hm
  obtain rfl : extra = [] := hkept
  refine ⟨_, taken, ?_, htaken⟩
  rw [literal, hfree, if_neg Bool.false_ne_true, validate_eq_ok_iff]
  exact hm

/-- The plain form of a selector from entries without models: the same for itself and for resolvers,
with each field as it was checked. -/
theorem exists_plain {taken : List (String × Option Value)}
    (h : Forall₂ (Taken room entries) (declared .selector) taken)
    (hfree : Value.entriesModelFree entries = true) : ∃ plain : Entries,
      toWire (ofFields .selector taken []) = .ok (.map plain) ∧
      (ofFields .selector taken []).wire = .ok (.map plain) ∧
      (Value.map plain).isSelector = true ∧
      ∀ f ∈ declared .selector, ∃ o, Taken room entries f (f.name, o) ∧
        Entries.get plain f.key = o.getD .null := by
  have hfields : Forall₂ HasForm (declared .selector) taken := h.imp fun _ _ => hasForm_of_taken
  have happart : IsApart .selector (givenNames taken) [] :=
    ⟨fun _ => rfl, .nil, List.forall_mem_nil _⟩
  have hmodel : ∀ t ∈ taken, (t.2.getD .null).isModelFree = true := by
    intro t ht
    obtain ⟨f, hf, htaken⟩ := exists_left_of_forall₂ h ht
    obtain ⟨name, o⟩ := t
    obtain rfl : name = f.name := htaken.1
    rw [taken_iff_of_name_eq (key_eq_name hf (by simp)).symm] at htaken
    cases hv : Table.get? entries f.key with
    | none =>
      rw [hv] at htaken
      rw [htaken.2]
      rfl
    | some v =>
      rw [hv] at htaken
      obtain ⟨w, hw, rfl⟩ := htaken
      obtain ⟨k, hmem, -⟩ := mem_of_get? hv
      exact isModelFree_of_check hf hw (Value.isModelFree_of_mem hfree hmem)
  have hroom : overruns (nestingLimit + 1) (ofFields .selector taken []) = false := by
    rw [overruns, meets_ofFields_eq_false_iff hfields]
    refine ⟨rfl, ?_, List.forall_mem_nil _⟩
    intro t ht v hv
    have hfree := hmodel t ht
    rw [Option.mem_def.1 hv] at hfree
    exact meets_of_isModelFree _ v hfree
  obtain ⟨plain, hplain⟩ : ∃ plain,
      dump true (nestingLimit + 1) (ofFields .selector taken []) = .map plain :=
    ⟨_, dump_of_isFormed hfields happart nestingLimit⟩
  have hformed : IsFormed .selector _ (givenNames taken) [] := ⟨taken, rfl, hfields, happart⟩
  have hown : dump true (nestingLimit + 1) (ofFields .selector taken []) =
      dump false (nestingLimit + 1) (ofFields .selector taken []) := by
    refine (dump_ofFields_eq_iff hfields happart (by simp) _).2 ⟨?_, List.forall_mem_nil _⟩
    intro t ht v hv
    have hfree := hmodel t ht
    rw [Option.mem_def.1 hv] at hfree
    rw [dump_of_isModelFree true _ v hfree, dump_of_isModelFree false _ v hfree]
  have hget : ∀ f ∈ declared .selector, ∃ o, Taken room entries f (f.name, o) ∧
      Entries.get plain f.key = o.getD .null := by
    intro f hf
    obtain ⟨⟨name, o⟩, ht, htaken⟩ := exists_right_of_forall₂ h hf
    obtain rfl : name = f.name := htaken.1
    refine ⟨o, htaken, ?_⟩
    rw [(get_plain hformed hplain hf).1, get_fields (nodup_names hfields) ht,
      dump_of_isModelFree true _ _ (hmodel _ ht)]
  have hwire : (ofFields .selector taken []).wire = .ok (.map plain) :=
    plain_eq_ok_iff.2 ⟨hroom, hplain⟩
  refine ⟨plain, plain_eq_ok_iff.2 ⟨hroom, hown.symm.trans hplain⟩, hwire, ?_, hget⟩
  exact isSelector_of_isFormed hformed hwire

/-- The plain form of a literal asks for what its options ask for. -/
theorem sameOptions_of_plain {v : Value} {plain : Entries}
    (h : ∀ f ∈ declared .selector, ∃ o, Taken room (bare .null v ++ more) f (f.name, o) ∧
      Entries.get plain f.key = o.getD .null) : SameOptions more plain := by
  have hsame {f : Field} (hf : f ∈ declared .selector)
      (hrule : f.rule = .optionalText ∨ f.rule = .format)
      (hget : Table.get? (bare .null v ++ more) f.key = Table.get? more f.key) :
      (Entries.get plain f.key).text? = (Entries.get more f.key).text? ∧
        (Entries.get plain f.key).isNull = (Entries.get more f.key).isNull := by
    obtain ⟨o, htaken, ho⟩ := h f hf
    rw [taken_iff_of_name_eq (key_eq_name hf (by simp)).symm, hget] at htaken
    rw [ho, Entries.get]
    cases hv : Table.get? more f.key with
    | none =>
      rw [hv] at htaken
      rw [htaken.2]
      exact ⟨rfl, rfl⟩
    | some x =>
      rw [hv] at htaken
      obtain ⟨w, hw, rfl⟩ := htaken
      exact option_of_check hrule hw
  intro name hname
  simp only [List.mem_cons, List.not_mem_nil, or_false] at hname
  rcases hname with rfl | rfl | rfl
  · exact hsame (f := ⟨"prefix", "prefix", .optionalText, false⟩)
      (by simp [declared, selectorFields]) (.inl rfl) rfl
  · exact hsame (f := ⟨"suffix", "suffix", .optionalText, false⟩)
      (by simp [declared, selectorFields]) (.inl rfl) rfl
  · exact hsame (f := ⟨"format", "format", .format, false⟩)
      (by simp [declared, selectorFields]) (.inr rfl) rfl

end Model

namespace Variable

open Level (HasOptions bare formatOf literalOutcome optionText)

theorem resolve_of_literal {v : Value} {more : Entries} (hv : v.isModelFree = true)
    (hmore : Value.entriesModelFree more = true)
    (hnames : ∀ e ∈ more, ∃ s, e.1.text? = some s ∧ s ∉ Model.literalNames)
    (h : HasOptions more) (c : Clock) (roots : Entries) : ∃ m wire,
      Model.literal v more = .ok m ∧ Model.toWire m = .ok wire ∧
        ∀ level ∈ [m, wire, .map (bare .null v ++ more)], resolve c roots (.list [level]) =
          literalOutcome c (formatOf more) (optionText more "prefix") (optionText more "suffix")
            v := by
  obtain ⟨room, taken, hliteral, htaken⟩ := Model.exists_literal v hnames h
  have hfree : Value.entriesModelFree (bare .null v ++ more) = true := by
    simpa [bare, Value.entriesModelFree, Value.isModelFree, hv] using hmore
  obtain ⟨plain, hplain, hwire, hselector, hfields⟩ := Model.exists_plain htaken hfree
  have hroot : plain.get "root" = .null := by
    obtain ⟨o, htaken, ho⟩ := hfields ⟨"root", "root", .optionalText, true⟩
      (by simp [Model.declared, Model.selectorFields])
    obtain ⟨w, hw, rfl⟩ := (Model.taken_iff_of_name_eq rfl).1 htaken
    obtain rfl := Except.ok.inj hw
    exact ho
  have hkeys : plain.get "keys" = v := by
    obtain ⟨o, htaken, ho⟩ := hfields ⟨"keys", "keys", .any, true⟩
      (by simp [Model.declared, Model.selectorFields])
    obtain ⟨w, hw, rfl⟩ := (Model.taken_iff_of_name_eq rfl).1 htaken
    have hw : Model.check room .any v = .ok w := hw
    rw [Model.check] at hw
    obtain rfl := Except.ok.inj hw
    exact ho
  have hplainWire (level : Entries) :
      (Value.list [.map level]).wire = .ok (.list [.map level]) := rfl
  have hmodelWire : (Value.list [Model.ofFields .selector taken []]).wire =
      .ok (.list [.map plain]) := by
    rw [Model.wire_list_of_models (by simp [Model.ofFields, Value.isModel]), List.mapM_cons, hwire]
    rfl
  have hresolve {levels : Value} (hlevels : levels.wire = .ok (.list [.map plain])) :
      resolve c roots levels = literalOutcome c (formatOf more) (optionText more "prefix")
        (optionText more "suffix") v := by
    rw [← hkeys]
    exact Level.resolve_of_sameOptions h (Model.sameOptions_of_plain hfields) hlevels hselector
      hroot c roots
  have hwritten : Level.SameOptions more (bare .null v ++ more) := by
    intro name hname
    simp only [List.mem_cons, List.not_mem_nil, or_false] at hname
    rcases hname with rfl | rfl | rfl <;> exact ⟨rfl, rfl⟩
  refine ⟨_, _, hliteral, hplain, ?_⟩
  intro level hlevel
  simp only [List.mem_cons, List.not_mem_nil, or_false] at hlevel
  rcases hlevel with rfl | rfl | rfl
  · exact hresolve hmodelWire
  · exact hresolve (hplainWire plain)
  · exact Level.resolve_of_sameOptions h hwritten (hplainWire _) rfl rfl c roots

theorem hasOptions_nil : HasOptions [] := ⟨.inl rfl, .inl rfl, .inl rfl⟩

theorem literalOutcome_plain (c : Clock) (v : Value) :
    literalOutcome c none "" "" v = pure v := by
  have := Outcome.lawful
  rw [literalOutcome]
  cases v.isTextOrNumber <;> simp

/-- A literal is resolved to its value, whether the selector is given as a model, in plain form or
written by hand. Texts and numbers are converted and put between the affixes that the options ask
for; without options every value comes back as it is. -/
theorem resolve_literal {v : Value} {more : Entries} (hv : v.isModelFree = true)
    (hmore : Value.entriesModelFree more = true)
    (hnames : ∀ e ∈ more, ∃ s, e.1.text? = some s ∧ s ∉ Model.literalNames)
    (h : HasOptions more) (c : Clock) (roots : Entries) :
    (∃ m wire, Model.literal v more = .ok m ∧ Model.toWire m = .ok wire ∧
      ∀ level ∈ [m, wire, .map (bare .null v ++ more)], resolve c roots (.list [level]) =
        literalOutcome c (formatOf more) (optionText more "prefix") (optionText more "suffix") v) ∧
    ∃ m wire, Model.literal v [] = .ok m ∧ Model.toWire m = .ok wire ∧
      ∀ level ∈ [m, wire], resolve c roots (.list [level]) = pure v := by
  refine ⟨resolve_of_literal hv hmore hnames h c roots, ?_⟩
  obtain ⟨m, wire, hm, hwire, hresolve⟩ :=
    resolve_of_literal hv rfl (List.forall_mem_nil _) hasOptions_nil c roots
  refine ⟨m, wire, hm, hwire, ?_⟩
  intro level hlevel
  rw [hresolve level (List.mem_append_left [_] hlevel)]
  exact literalOutcome_plain c v

/-- A text that begins with a number, converted and put in brackets. -/
theorem resolve_literal_pixels :
    let c : Clock := ⟨0, ⟨.first, none⟩, false⟩
    let more : Entries := [(.text "format", .text "toInt"), (.text "prefix", .text "("),
      (.text "suffix", .text ")")]
    HasOptions more ∧ ∃ m wire, Model.literal (.text "7px") more = .ok m ∧
      Model.toWire m = .ok wire ∧
        ∀ level ∈ [m, wire], (resolve c [] (.list [level])).result = .ok (.text "(7)") := by
  intro c more
  have h : HasOptions more := ⟨.inr rfl, .inr rfl, .inr ⟨"toInt", by decide, rfl⟩⟩
  have hnames : ∀ e ∈ more, ∃ s, e.1.text? = some s ∧ s ∉ Model.literalNames := by
    simp [more, Value.text?, Model.literalNames]
  obtain ⟨⟨m, wire, hm, hwire, hresolve⟩, -⟩ :=
    resolve_literal (v := .text "7px") rfl rfl hnames h c []
  refine ⟨h, m, wire, hm, hwire, ?_⟩
  intro level hlevel
  have hread : Format.toInt (.text "7px") = .ok (some 7) := rfl
  have hshow : (Value.int 7).show? = .ok "7" := by
    have heq : (Value.int 7).show? =
        if Text.isWritable 7 then .ok (Text.whole 7) else .error .tooManyDigits := rfl
    rw [heq, if_pos (Text.isWritable_iff.2 (by decide))]
    rfl
  have hkind : formatOf more = some .toInt := rfl
  have haffixes : optionText more "prefix" = "(" ∧ optionText more "suffix" = ")" := ⟨rfl, rfl⟩
  rw [hresolve level (List.mem_append_left [_] hlevel), hkind, haffixes.1, haffixes.2,
    literalOutcome]
  simp [Value.isTextOrNumber, Format.applyKind, hread, hshow]

end Variable

end ViewDoc
