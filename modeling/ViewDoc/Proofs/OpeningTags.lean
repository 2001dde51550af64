import Mathlib.Data.List.TakeWhile
import ViewDoc.Proofs.Markup

/-!
Opening tags, read back attribute by attribute.

What stands inside a tag is cut at white space outside quotes. The first part is the tag's name and
each other part an attribute, whose name ends at an equals sign. Names are only escaped when they
are written, so that a name with white space or an equals sign in it is read as something else.
-/

namespace ViewDoc

namespace Html

/-- White space between attributes. -/
def isSpace (c : Char) : Bool :=
  c == ' ' || c == '\t' || c == '\n' || c == '\r' || c == '\x0c'

def isQuote (c : Char) : Bool := c == '\x22' || c == '\x27'

/-- The parts of a tag up to its end, cut at white space; `quote` is the quote that is open, and
`part` what the current part has so far. -/
def cutTag (quote : Option Char) (part : List Char) : List Char → Option (List (List Char))
  | [] => none
  | c :: cs =>
    match quote with
    | some q => cutTag (if c = q then none else some q) (part ++ [c]) cs
    | none =>
      if c = '>' then some [part]
      else if isSpace c then (cutTag none [] cs).map (part :: ·)
      else cutTag (if isQuote c then some c else none) (part ++ [c]) cs

/-- Whether a name goes on with a character. -/
def isNamePart (c : Char) : Bool := c != '=' && !isSpace c

/-- What stands between quotes, if there are any. -/
def unquote : List Char → List Char
  | [] => []
  | q :: v => if isQuote q && v.getLast? == some q then v.dropLast else q :: v

/-- The attribute that a part of a tag spells, with its value as it is meant. -/
def Attribute.ofPart (part : List Char) : Attribute where
  name := part.takeWhile isNamePart
  value :=
    match part.dropWhile isNamePart with
    | '=' :: v => some (unescape (unquote v))
    | _ => none

/-- The name of the first tag, and its attributes. -/
def readOpening : List Char → Option (String × List Attribute)
  | '<' :: cs =>
    (cutTag none [] cs).bind fun
      | name :: parts =>
        some (String.ofList name, (parts.filter fun part => !part.isEmpty).map Attribute.ofPart)
      | [] => none
  | _ => none

/-- Whether a value stands for no attribute. -/
def isAbsent : Value → Bool
  | .null | .bool false | .function .. => true
  | _ => false

/-- Whether a prop is to be an attribute. -/
def isKept (prop : String × Value) : Bool := !(skippedNames.contains prop.1 || isAbsent prop.2)

/-- The text of a value: a style map is inline CSS. -/
def valueText (name : String) : Value → Except Failure String
  | .map style => if name = "style" then css style else (Value.map style).show?
  | v => v.show?

def attributeWord (name : String) : String := if name = "className" then "class" else name

/-- The attribute that a prop is meant to be. -/
def Attribute.ofProp (prop : String × Value) : Except Failure Attribute :=
  let name := (attributeWord prop.1).toList
  match prop.2 with
  | .bool true => .ok ⟨name, none⟩
  | v => (valueText prop.1 v).map fun text => ⟨name, some text.toList⟩

/-- An attribute for each prop that is kept. -/
def attributesOf (props : List (String × Value)) : Except Failure (List Attribute) :=
  (props.filter isKept).mapM Attribute.ofProp

/-- Props as a node has them. -/
def named (props : List (String × Value)) : Entries := props.map fun (name, v) => (.text name, v)

/-- An attribute as it is written. -/
def Attribute.written (a : Attribute) : Attribute :=
  ⟨escapeChars a.name, a.value.map escapeChars⟩

theorem isSkipped_text (name : String) (v : Value) :
    isSkipped (.text name) v = !isKept (name, v) := by
  have hname : (skippedNames.any fun skipped => (Value.text name).equal (.text skipped)) =
      skippedNames.contains name := by
    rw [Bool.eq_iff_iff]
    simp [skippedNames, @eq_comm _ name]
  unfold isSkipped
  rw [isKept, hname, Bool.not_not]
  rfl

theorem attributeName_text (name : String) :
    attributeName (.text name) = .text (attributeWord name) := by
  rw [attributeName, Value.equal_text, attributeWord]
  by_cases h : name = "className"
  · simp [h]
  · simp [h, Ne.symm h]

theorem equal_attributeWord (name : String) :
    (Value.text (attributeWord name)).equal (.text "style") = true ↔ name = "style" := by
  rw [Value.equal_text, beq_iff_eq, attributeWord]
  by_cases h : name = "className"
  · simp [h]
  · simp [h, eq_comm]

theorem attributeValue_text (name : String) (v : Value) :
    (attributeValue (.text (attributeWord name)) v).bind Value.show? = valueText name v := by
  cases v with
  | map style =>
    rw [attributeValue, valueText]
    by_cases h : name = "style"
    · rw [if_pos h, if_pos ((equal_attributeWord name).2 h)]
      cases css style with
      | error f => rfl
      | ok text => rw [ok_map, ok_bind, Value.show?_text]
    · rw [if_neg h, if_neg (mt (equal_attributeWord name).1 h), ok_bind]
  | _ => simp only [attributeValue, valueText, ok_bind]

theorem Attribute.ofProp_of_ne {name : String} {v : Value} (hv : v ≠ .bool true) :
    Attribute.ofProp (name, v) = (valueText name v).map fun text =>
      ⟨(attributeWord name).toList, some text.toList⟩ := by
  unfold Attribute.ofProp
  split
  · exact absurd ‹_› hv
  · rfl

/-- What is written for a prop is the attribute that it is meant to be, escaped. -/
theorem attributeText_text (name : String) (v : Value) :
    attributeText (.text name) v =
      (Attribute.ofProp (name, v)).map fun a => String.ofList a.written.chars := by
  have hname : ofValue (.text (attributeWord name)) = .ok (escape (attributeWord name)) := rfl
  by_cases hv : v = .bool true
  · subst hv
    simp only [attributeText, attributeName_text]
    rfl
  have hshow := attributeValue_text name v
  rw [Attribute.ofProp_of_ne hv, ← hshow]
  simp only [attributeText, attributeName_text, bind]
  cases hw : attributeValue (.text (attributeWord name)) v with
  | error f => rfl
  | ok w =>
    have hne : w ≠ .bool true := by
      rcases attributeValue_eq_ok hw with rfl | ⟨s, rfl⟩
      · exact hv
      · simp
    simp only [ok_bind, hname]
    cases w.show? with
    | error f => rfl
    | ok text =>
      refine congrArg _ (String.toList_inj.1 ?_)
      simp [Attribute.written, Attribute.chars, escape]

theorem attributes_named (props : List (String × Value)) :
    attributes (named props) =
      (attributesOf props).map fun as => as.map fun a => String.ofList a.written.chars := by
  induction props with
  | nil => rfl
  | cons prop props ih =>
    obtain ⟨name, v⟩ := prop
    have hnamed : named ((name, v) :: props) = (.text name, v) :: named props := rfl
    rw [attributesOf] at ih
    rw [hnamed, attributes, isSkipped_text, attributesOf, List.filter_cons]
    cases isKept (name, v) with
    | false => simpa using ih
    | true =>
      simp only [Bool.not_true, Bool.false_eq_true, if_false, if_true, List.mapM_cons, bind, pure,
        attributeText_text, ih]
      cases Attribute.ofProp (name, v) with
      | error f => rfl
      | ok a => cases (props.filter isKept).mapM Attribute.ofProp <;> rfl

theorem attributeWord_ne_empty {name : String} (h : name ≠ "") : attributeWord name ≠ "" := by
  rw [attributeWord]
  split
  · decide
  · exact h

theorem Attribute.name_ofProp {prop : String × Value} {a : Attribute}
    (h : Attribute.ofProp prop = .ok a) : a.name = (attributeWord prop.1).toList := by
  unfold Attribute.ofProp at h
  split at h
  · rw [← Except.ok.inj h]
  · obtain ⟨text, -, rfl⟩ := map_eq_ok_iff.1 h
    rfl

/-- Each attribute is called by the name of a prop that is kept. -/
theorem names_of_attributesOf {props : List (String × Value)} {as : List Attribute}
    (h : attributesOf props = .ok as) :
    as.map (·.name) = (props.filter isKept).map fun prop => (attributeWord prop.1).toList := by
  rw [attributesOf, mapM_eq_ok_iff] at h
  generalize props.filter isKept = kept at h
  induction h with
  | nil => rfl
  | cons ha _ ih => rw [List.map_cons, List.map_cons, ih, Attribute.name_ofProp ha]

theorem name_ne_nil {props : List (String × Value)} (hnames : ∀ prop ∈ props, prop.1 ≠ "")
    {as : List Attribute} (h : attributesOf props = .ok as) {a : Attribute} (ha : a ∈ as) :
    a.name ≠ [] := by
  have hname := List.mem_map_of_mem (f := (·.name)) ha
  rw [names_of_attributesOf h] at hname
  obtain ⟨prop, hprop, hword⟩ := List.mem_map.1 hname
  rw [← hword]
  have hfull := attributeWord_ne_empty (hnames prop (List.mem_filter.1 hprop).1)
  simpa using hfull

theorem Attribute.chars_ne_nil {a : Attribute} (h : a.name ≠ []) : a.chars ≠ [] := by
  rw [Attribute.chars]
  cases a.value with
  | none => exact h
  | some v => simp

theorem Attribute.written_name_ne_nil {a : Attribute} (h : a.name ≠ []) : a.written.name ≠ [] :=
  mt escapeChars_eq_nil h

/-- An opening tag has all attributes of its props, each behind a blank. -/
theorem opening_named {tag : String} (htag : IsTagName tag) {props : List (String × Value)}
    (hnames : ∀ prop ∈ props, prop.1 ≠ "") : opening tag (named props) =
      (attributesOf props).map fun as =>
        String.ofList ('<' :: ((Tag.start tag (as.map Attribute.written)).inside ++ ['>'])) := by
  rw [opening, attributes_named, escape_of_isTagName htag]
  cases has : attributesOf props with
  | error f => rfl
  | ok as =>
    simp only [ok_map, bind, ok_bind, pure, Except.pure]
    refine congrArg _ (String.toList_inj.1 ?_)
    cases as with
    | nil => simp [Tag.inside]
    | cons a as =>
      let texts := (a :: as).map fun a => String.ofList a.written.chars
      have hblank : ' ' :: (" ".intercalate texts).toList =
          (texts.map String.toList).flatMap fun cs => ' ' :: cs :=
        intercalate_blank (by simp [texts])
      have hfull : (" ".intercalate texts).isEmpty = false := by
        apply Bool.eq_false_iff.2
        intro hempty
        have hchars := Attribute.chars_ne_nil
          (Attribute.written_name_ne_nil (name_ne_nil hnames has List.mem_cons_self))
        rw [String.isEmpty_iff.1 hempty] at hblank
        simp [texts, hchars] at hblank
      have htexts : texts.map String.toList =
          ((a :: as).map Attribute.written).map Attribute.chars := by
        simp [texts]
      rw [htexts, List.flatMap_map] at hblank
      rw [Tag.inside, ← hblank, hfull]
      simp [texts]

/-- Characters that neither end a part of a tag nor quote anything. -/
def IsPlainPart (cs : List Char) : Prop := ∀ c ∈ cs, c ≠ '>' ∧ isSpace c = false ∧ isQuote c = false

theorem cutTag_append {cs : List Char} (h : IsPlainPart cs) (part rest : List Char) :
    cutTag none part (cs ++ rest) = cutTag none (part ++ cs) rest := by
  induction cs generalizing part with
  | nil => simp
  | cons c cs ih =>
    obtain ⟨⟨hend, hspace, hquote⟩, hrest⟩ := List.forall_mem_cons.1 h
    rw [List.cons_append, cutTag, if_neg hend, hspace, hquote]
    simp only [Bool.false_eq_true, if_false]
    rw [ih hrest, List.append_assoc]
    rfl

theorem cutTag_quoted {q : Char} {cs : List Char} (h : q ∉ cs) (part rest : List Char) :
    cutTag (some q) part (cs ++ q :: rest) = cutTag none (part ++ cs ++ [q]) rest := by
  induction cs generalizing part with
  | nil => simp [cutTag]
  | cons c cs ih =>
    obtain ⟨hc, hrest⟩ := not_or.1 (mt List.mem_cons.2 h)
    rw [List.cons_append, cutTag, if_neg (Ne.symm hc), ih hrest]
    simp

/-- An attribute that is read as the part that it is written as. -/
structure Attribute.IsPart (a : Attribute) : Prop where
  name : IsPlainPart a.name
  value : ∀ v ∈ a.value, '\x22' ∉ v

theorem cutTag_attribute {a : Attribute} (h : a.IsPart) (part rest : List Char) :
    cutTag none part (a.chars ++ rest) = cutTag none (part ++ a.chars) rest := by
  have hname := cutTag_append h.name
  rw [Attribute.chars]
  cases hv : a.value with
  | none => exact hname part rest
  | some v =>
    have hquoted := cutTag_quoted (h.value v hv) (part ++ a.name ++ ['=', '\x22']) rest
    have hopen : cutTag none (part ++ a.name) ('=' :: '\x22' :: (v ++ '\x22' :: rest)) =
        cutTag (some '\x22') (part ++ a.name ++ ['=', '\x22']) (v ++ '\x22' :: rest) := by
      simp [cutTag, isSpace, isQuote]
    have hchars : a.name ++ '=' :: '\x22' :: (v ++ ['\x22']) ++ rest =
        a.name ++ ('=' :: '\x22' :: (v ++ '\x22' :: rest)) := by
      simp
    rw [hchars, hname, hopen, hquoted]
    simp

theorem cutTag_attributes {as : List Attribute} (h : ∀ a ∈ as, a.IsPart) (part rest : List Char) :
    cutTag none part ((as.flatMap fun a => ' ' :: a.chars) ++ '>' :: rest) =
      some (part :: as.map Attribute.chars) := by
  induction as generalizing part with
  | nil => simp [cutTag]
  | cons a as ih =>
    obtain ⟨ha, hrest⟩ := List.forall_mem_cons.1 h
    have hspace : cutTag none part (' ' :: (a.chars ++
        ((as.flatMap fun a => ' ' :: a.chars) ++ '>' :: rest))) =
          (cutTag none [] (a.chars ++
            ((as.flatMap fun a => ' ' :: a.chars) ++ '>' :: rest))).map (part :: ·) := by
      simp [cutTag, isSpace]
    rw [List.flatMap_cons, List.cons_append, List.cons_append, List.append_assoc, hspace,
      cutTag_attribute ha, ih hrest]
    rfl

/-- A name that is not cut short. -/
def IsWhole (cs : List Char) : Prop := ∀ c ∈ cs, isNamePart c = true

theorem isNamePart_escapeChar_iff (c : Char) :
    (∀ d ∈ escapeChar c, isNamePart d = true) ↔ isNamePart c = true := by
  rw [escapeChar]
  split
  · subst c
    simp [isNamePart, isSpace]
  split
  · subst c
    simp [isNamePart, isSpace]
  split
  · subst c
    simp [isNamePart, isSpace]
  split
  · subst c
    simp [isNamePart, isSpace]
  split
  · subst c
    simp [isNamePart, isSpace]
  · exact List.forall_mem_singleton

/-- Escaping neither hides nor adds what a name ends at. -/
theorem isWhole_escapeChars_iff {cs : List Char} : IsWhole (escapeChars cs) ↔ IsWhole cs := by
  rw [IsWhole, escapeChars, List.forall_mem_flatMap, IsWhole]
  exact forall₂_congr fun c _ => isNamePart_escapeChar_iff c

theorem isPlainPart_of_isWhole {cs : List Char} (h : IsWhole cs) (hquiet : IsQuiet cs) :
    IsPlainPart cs := by
  intro c hc
  have hpart := h c hc
  obtain ⟨-, hend, hquote, happ⟩ := hquiet c hc
  simp only [isNamePart, Bool.and_eq_true, Bool.not_eq_true'] at hpart
  refine ⟨hend, hpart.2, ?_⟩
  simp [isQuote, hquote, happ]

theorem Attribute.isPart_written {a : Attribute} (h : IsWhole a.name) : a.written.IsPart := by
  refine ⟨isPlainPart_of_isWhole (isWhole_escapeChars_iff.2 h) (isQuiet_escapeChars _), ?_⟩
  intro v hv hquote
  obtain ⟨w, -, rfl⟩ := Option.map_eq_some_iff.1 hv
  exact (isQuiet_escapeChars w _ hquote).2.2.1 rfl

theorem unquote_quoted (v : List Char) : unquote ('\x22' :: (v ++ ['\x22'])) = v := by
  simp [unquote, isQuote]

/-- The name of an attribute as it is written, and its value as it is meant. -/
def Attribute.escapedName (a : Attribute) : Attribute := { a with name := escapeChars a.name }

theorem Attribute.ofPart_written {a : Attribute} (h : IsWhole a.name) :
    Attribute.ofPart a.written.chars = a.escapedName := by
  have hwhole : IsWhole (escapeChars a.name) := isWhole_escapeChars_iff.2 h
  obtain ⟨name, value⟩ := a
  cases value with
  | none =>
    have htake := List.takeWhile_eq_self_iff.2 hwhole
    have hdrop := List.dropWhile_eq_nil_iff.2 hwhole
    simp [Attribute.written, Attribute.chars, Attribute.ofPart, Attribute.escapedName, htake, hdrop]
  | some v =>
    have hend : isNamePart '=' = false := by decide
    let behind := '=' :: '\x22' :: (escapeChars v ++ ['\x22'])
    have htake : (escapeChars name ++ behind).takeWhile isNamePart = escapeChars name := by
      rw [List.takeWhile_append_of_pos hwhole, List.takeWhile_cons_of_neg (by simp [hend]),
        List.append_nil]
    have hdrop : (escapeChars name ++ behind).dropWhile isNamePart = behind := by
      rw [List.dropWhile_append_of_pos hwhole, List.dropWhile_cons_of_neg (by simp [hend])]
    simp [Attribute.written, Attribute.chars, Attribute.ofPart, Attribute.escapedName, behind,
      htake, hdrop, unquote_quoted, unescape_escapeChars]

/-- The name of an element that is one word. -/
structure IsElementName (name : String) : Prop where
  tag : IsTagName name
  noSpace : ∀ c ∈ name.toList, isSpace c = false

theorem IsElementName.isPlainPart {name : String} (h : IsElementName name) :
    IsPlainPart name.toList := by
  intro c hc
  obtain ⟨-, hend, hquote, happ⟩ := h.tag.isQuiet c hc
  exact ⟨hend, h.noSpace c hc, by simp [isQuote, hquote, happ]⟩

theorem isElementName_tagName {element : Value} (h : IsElementName element.shown) :
    IsElementName (tagName element) := by
  refine ⟨isTagName_tagName h.tag, ?_⟩
  rw [tagName]
  split
  · simp [isSpace]
  · exact h.noSpace

/-- With names that are not cut short, the attributes are read as they are written. -/
theorem readOpening_written {tag : String} (htag : IsElementName tag) {as : List Attribute}
    (hne : ∀ a ∈ as, a.name ≠ []) (hwhole : ∀ a ∈ as, IsWhole a.name) (rest : List Char) :
    readOpening ('<' :: ((Tag.start tag (as.map Attribute.written)).inside ++ '>' :: rest)) =
      some (tag, as.map Attribute.escapedName) := by
  have hparts : ∀ a ∈ as.map Attribute.written, a.IsPart :=
    List.forall_mem_map.2 fun a ha => Attribute.isPart_written (hwhole a ha)
  have hcut := cutTag_attributes hparts tag.toList rest
  have hfull : ((as.map Attribute.written).map Attribute.chars).filter (fun part => !part.isEmpty) =
      (as.map Attribute.written).map Attribute.chars := by
    apply List.filter_eq_self.2
    intro part hpart
    simp only [List.mem_map] at hpart
    obtain ⟨_, ⟨a, ha, rfl⟩, rfl⟩ := hpart
    simpa using Attribute.chars_ne_nil (Attribute.written_name_ne_nil (hne a ha))
  have hread : (as.map fun a => Attribute.ofPart a.written.chars) = as.map Attribute.escapedName :=
    List.map_congr_left fun a ha => Attribute.ofPart_written (hwhole a ha)
  rw [Tag.inside, List.append_assoc, readOpening, cutTag_append htag.isPlainPart, List.nil_append,
    hcut, Option.bind_some]
  dsimp only
  rw [hfull, List.map_map, List.map_map, String.ofList_toList, ← hread]
  rfl

/-- No name that is read goes on behind where names end. -/
theorem isWhole_of_readOpening {cs : List Char} {tag : String} {as : List Attribute}
    (h : readOpening cs = some (tag, as)) {a : Attribute} (ha : a ∈ as) : IsWhole a.name := by
  have hpart (part : List Char) : IsWhole (Attribute.ofPart part).name := by
    intro c hc
    exact List.mem_takeWhile_imp hc
  unfold readOpening at h
  split at h
  · obtain ⟨parts, -, h⟩ := Option.bind_eq_some_iff.1 h
    split at h
    · obtain ⟨-, rfl⟩ := Prod.mk.inj (Option.some.inj h)
      obtain ⟨part, -, rfl⟩ := List.mem_map.1 ha
      exact hpart part
    · cases h
  · cases h

/-- What is escaped. -/
def escapedChars : List Char := ['&', '<', '>', '\x22', '\x27']

theorem escapeChar_of_not_mem {c : Char} (h : c ∉ escapedChars) : escapeChar c = [c] := by
  simp only [escapedChars, List.mem_cons, List.not_mem_nil, or_false, not_or] at h
  simp [escapeChar, h]

theorem length_escapeChar_of_mem {c : Char} (h : c ∈ escapedChars) :
    1 < (escapeChar c).length := by
  simp only [escapedChars, List.mem_cons, List.not_mem_nil, or_false] at h
  rcases h with rfl | rfl | rfl | rfl | rfl <;> decide

theorem escapeChars_cons (c : Char) (cs : List Char) :
    escapeChars (c :: cs) = escapeChar c ++ escapeChars cs := List.flatMap_cons

theorem length_le_escapeChars (cs : List Char) : cs.length ≤ (escapeChars cs).length := by
  induction cs with
  | nil => exact Nat.le_refl _
  | cons c cs ih =>
    have hc : 1 ≤ (escapeChar c).length := by
      by_cases h : c ∈ escapedChars
      · exact Nat.le_of_lt (length_escapeChar_of_mem h)
      · rw [escapeChar_of_not_mem h]
        exact Nat.le_refl _
    rw [escapeChars_cons, List.length_append, List.length_cons]
    omega

/-- Escaping leaves alone what has nothing to be escaped, and only that. -/
theorem escapeChars_eq_self_iff {cs : List Char} :
    escapeChars cs = cs ↔ ∀ c ∈ cs, c ∉ escapedChars := by
  induction cs with
  | nil => simp [escapeChars]
  | cons c cs ih =>
    rw [escapeChars_cons, List.forall_mem_cons]
    by_cases h : c ∈ escapedChars
    · refine ⟨fun heq => ?_, fun hno => absurd h hno.1⟩
      have hlength := congrArg List.length heq
      have hc := length_escapeChar_of_mem h
      have hle := length_le_escapeChars cs
      rw [List.length_append, List.length_cons] at hlength
      omega
    · rw [escapeChar_of_not_mem h, List.singleton_append, List.cons.injEq, ih]
      exact and_congr_left fun _ => ⟨fun _ => h, fun _ => rfl⟩

theorem map_escapedName_eq_self_iff {as : List Attribute} :
    as.map Attribute.escapedName = as ↔ ∀ a ∈ as, ∀ c ∈ a.name, c ∉ escapedChars := by
  have hself (a : Attribute) : a.escapedName = a ↔ ∀ c ∈ a.name, c ∉ escapedChars := by
    rw [← escapeChars_eq_self_iff]
    exact ⟨fun h => congrArg Attribute.name h, fun h => by rw [Attribute.escapedName, h]⟩
  induction as with
  | nil => simp
  | cons a as ih =>
    rw [List.map_cons, List.cons.injEq, List.forall_mem_cons]
    exact and_congr (hself a) ih

theorem exists_opening_of_wrap {tag inner html : String} (htag : IsTagName tag)
    {props : List (String × Value)} (hnames : ∀ prop ∈ props, prop.1 ≠ "")
    (h : wrap tag (named props) inner = .ok html) : ∃ as rest, attributesOf props = .ok as ∧
      html.toList = '<' :: ((Tag.start tag (as.map Attribute.written)).inside ++ '>' :: rest) := by
  simp only [wrap, bind, pure, Except.pure, opening_named htag hnames] at h
  obtain ⟨start, hstart, h⟩ := bind_eq_ok_iff.1 h
  obtain ⟨as, has, rfl⟩ := map_eq_ok_iff.1 hstart
  cases hvoid : voidElements.contains tag with
  | true =>
    rw [hvoid, if_pos rfl] at h
    refine ⟨as, [], has, ?_⟩
    rw [← Except.ok.inj h, String.toList_ofList]
  | false =>
    rw [hvoid, if_neg Bool.false_ne_true] at h
    refine ⟨as, inner.toList ++ ("</" ++ escape tag ++ ">").toList, has, ?_⟩
    rw [← Except.ok.inj h]
    simp

/-- What is printed for a node begins with its opening tag. -/
theorem exists_opening_of_ofNode {call : Value → List Value → Outcome Value} {element : Value}
    (hfunction : element.isFunction = false) (htag : IsTagName element.shown)
    {props : List (String × Value)} (hnames : ∀ prop ∈ props, prop.1 ≠ "")
    {children : Option (List (Option Node))} {html : String}
    (h : (ofNode call ⟨element, .map (named props), children⟩).result = .ok html) :
    ∃ as rest, attributesOf props = .ok as ∧ html.toList =
      '<' :: ((Tag.start (tagName element) (as.map Attribute.written)).inside ++ '>' :: rest) := by
  obtain ⟨inner, hinner⟩ : ∃ inner, (enclose call element (.map (named props)) inner).result =
      .ok html := by
    cases children with
    | none =>
      simp only [ofNode, Value.entries, Value.entries?, Outcome.result_bind, Outcome.result_liftM,
        ok_bind] at h
      obtain ⟨content, -, h⟩ := bind_eq_ok_iff.1 h
      exact ⟨_, h⟩
    | some children =>
      simp only [ofNode, Outcome.result_bind] at h
      obtain ⟨inner, -, h⟩ := bind_eq_ok_iff.1 h
      exact ⟨inner, h⟩
  rw [enclose] at hinner
  rw [hfunction, if_neg Bool.false_ne_true] at hinner
  simp only [Outcome.result_bind, Outcome.result_liftM] at hinner
  obtain ⟨tag, ht, hinner⟩ := bind_eq_ok_iff.1 hinner
  obtain rfl := tagOf_eq_ok ht
  exact exists_opening_of_wrap (isTagName_tagName htag) hnames hinner

/-- A property of names that `className` and `class` share holds of the attributes if it holds of
the props that are kept. -/
theorem forall_name_iff {props : List (String × Value)} {as : List Attribute}
    (h : attributesOf props = .ok as) {P : List Char → Prop} (hclass : P "class".toList)
    (hclassName : P "className".toList) :
    (∀ a ∈ as, P a.name) ↔ ∀ prop ∈ props.filter isKept, P prop.1.toList := by
  have hword (name : String) : P (attributeWord name).toList ↔ P name.toList := by
    rw [attributeWord]
    split
    · subst name
      exact iff_of_true hclass hclassName
    · exact Iff.rfl
  have hmap := List.forall_mem_map (f := (·.name)) (l := as) (P := P)
  rw [← hmap, names_of_attributesOf h, List.forall_mem_map]
  exact forall₂_congr fun prop _ => hword prop.1

/-- The opening tag of a node fails over the attributes that fail. In all others an attribute is
read for each prop that is kept, in order and with its value, exactly if no name has white space or
an equals sign in it; and the names are read as they are exactly if nothing in them is escaped
either. -/
theorem read_opening_iff {element : Value} (hfunction : element.isFunction = false)
    (htag : IsElementName element.shown) {props : List (String × Value)}
    (hnames : ∀ prop ∈ props, prop.1 ≠ "") :
    (∀ f, opening (tagName element) (named props) = .error f ↔ attributesOf props = .error f) ∧
    ∀ call children html, (ofNode call ⟨element, .map (named props), children⟩).result = .ok html →
      ∃ as, attributesOf props = .ok as ∧
        (readOpening html.toList = some (tagName element, as.map Attribute.escapedName) ↔
          ∀ prop ∈ props.filter isKept, IsWhole prop.1.toList) ∧
        (readOpening html.toList = some (tagName element, as) ↔
          ∀ prop ∈ props.filter isKept, IsWhole prop.1.toList ∧
            ∀ c ∈ prop.1.toList, c ∉ escapedChars) := by
  refine ⟨?_, ?_⟩
  · intro f
    rw [opening_named (isTagName_tagName htag.tag) hnames, map_eq_error_iff]
  intro call children html h
  obtain ⟨as, rest, has, hhtml⟩ := exists_opening_of_ofNode hfunction htag.tag hnames h
  have hread (hwhole : ∀ a ∈ as, IsWhole a.name) :
      readOpening html.toList = some (tagName element, as.map Attribute.escapedName) := by
    rw [hhtml]
    exact readOpening_written (isElementName_tagName htag) (fun a ha => name_ne_nil hnames has ha)
      hwhole rest
  have hwhole := forall_name_iff has (P := IsWhole)
    (by simp [IsWhole, isNamePart, isSpace]) (by simp [IsWhole, isNamePart, isSpace])
  have hplain := forall_name_iff has (P := fun cs => ∀ c ∈ cs, c ∉ escapedChars)
    (by simp [escapedChars]) (by simp [escapedChars])
  refine ⟨as, has, ?_, ?_⟩
  · rw [← hwhole]
    constructor
    · intro hopening a ha
      have hescaped := isWhole_of_readOpening hopening (List.mem_map_of_mem ha)
      exact isWhole_escapeChars_iff.1 hescaped
    · exact hread
  · simp only [forall_and]
    rw [← hwhole, ← hplain, ← map_escapedName_eq_self_iff]
    constructor
    · intro hopening
      have hall : ∀ a ∈ as, IsWhole a.name := fun a ha => isWhole_of_readOpening hopening ha
      have heq := (hread hall).symm.trans hopening
      exact ⟨hall, (Prod.mk.inj (Option.some.inj heq)).2⟩
    · rintro ⟨hall, hsame⟩
      rw [hread hall, hsame]

/-- Two props that are kept and two that are not; the last name has a bracket in it, which stands in
the tag as it is escaped. -/
theorem read_opening_iff_link :
    let props : List (String × Value) := [("className", .text "a b"), ("key", .int 1),
      ("disabled", .bool true), ("hidden", .bool false), ("x<y", .text "\x22")]
    let call : Value → List Value → Outcome Value := fun _ _ => pure .null
    let read (name : String) : Option (String × List Attribute) := some ("a",
      [⟨"class".toList, some "a b".toList⟩, ⟨"disabled".toList, none⟩,
        ⟨name.toList, some ['\x22']⟩])
    ∃ html, (ofNode call ⟨.text "a", .map (named props), some []⟩).result = .ok html ∧
      readOpening html.toList = read "x&lt;y" ∧ readOpening html.toList ≠ read "x<y" := by
  intro props call read
  have htag : IsElementName (Value.text "a").shown :=
    ⟨isTagName_of_alphanum (by decide), by simp [Value.shown, isSpace]⟩
  have hnames : ∀ prop ∈ props, prop.1 ≠ "" := by simp [props]
  obtain ⟨html, h⟩ : ∃ html,
      (ofNode call ⟨.text "a", .map (named props), some []⟩).result = .ok html := ⟨_, rfl⟩
  obtain ⟨as, has, hescaped, hplain⟩ := (read_opening_iff rfl htag hnames).2 call _ html h
  have hkept : props.filter isKept =
      [("className", .text "a b"), ("disabled", .bool true), ("x<y", .text "\x22")] := rfl
  obtain rfl : [⟨"class".toList, some "a b".toList⟩, ⟨"disabled".toList, none⟩,
      ⟨"x<y".toList, some ['\x22']⟩] = as := Except.ok.inj has
  rw [hkept] at hescaped hplain
  refine ⟨html, h, ?_, ?_⟩
  · refine (hescaped.2 ?_).trans rfl
    simp [IsWhole, isNamePart, isSpace]
  · intro hread
    have hbroken := (hplain.1 hread) ("x<y", .text "\x22") (by simp)
    exact hbroken.2 '<' (by decide) (by decide)

/-- A name with white space in it is read as two attributes; the second one takes the value. -/
theorem readOpening_broken_name :
    let props : List (String × Value) := [("x onclick", .text "alert(1)")]
    let call : Value → List Value → Outcome Value := fun _ _ => pure .null
    let html := "<div x onclick=\"alert(1)\"></div>"
    (ofNode call ⟨.text "div", .map (named props), none⟩).result = .ok html ∧
      attributesOf props = .ok [⟨"x onclick".toList, some "alert(1)".toList⟩] ∧
      readOpening html.toList = some ("div",
        [⟨"x".toList, none⟩, ⟨"onclick".toList, some "alert(1)".toList⟩]) := by
  intro props call html
  refine ⟨rfl, rfl, ?_⟩
  simp [html, readOpening, cutTag, isSpace, isQuote, Attribute.ofPart, isNamePart, unquote,
    unescape]

end Html
end ViewDoc
