import ViewDoc.Proofs.Merging
import ViewDoc.Proofs.Refusals
import ViewDoc.Proofs.Styles

/-!
Which data a variable or a style can see: what its selectors name, and nothing else.

A level looks at one table only, that of its root. A selector of a style asks whether its root is
there, and looks at the one category that its start names or, looked up by root, at the root's own.
What is found there is never used to choose another table.
-/

namespace ViewDoc

variable {roots others styles : Entries}

namespace Level

theorem body_congr {level : Entries}
    (h : ∀ name, (level.get "root").text? = some name → roots.get? name = others.get? name) :
    body roots level = body others level := by
  have hroot : ((level.get "root").text?.bind fun name => roots.get? name) =
      (level.get "root").text?.bind fun name => others.get? name := Option.bind_congr h
  dsimp only [body]
  rw [hroot]

theorem said_map (c : Clock) (roots entries : Entries) :
    said c roots (.map entries) = liftM (body roots entries) >>= format c entries := rfl

theorem said_congr {c : Clock} {level : Value}
    (h : ∀ entries : Entries, level = .map entries → ∀ name,
      (entries.get "root").text? = some name → roots.get? name = others.get? name) :
    said c roots level = said c others level := by
  cases level with
  | map entries => rw [said_map, said_map, body_congr (h entries rfl)]
  | _ => rfl

end Level

namespace Variable

/-- A text that is the root of a selector among the levels. -/
def Names (v : Value) (name : String) : Prop :=
  ∃ w levels, v.wire = .ok w ∧ w.items? = some levels ∧ ∃ level : Entries,
    Value.map level ∈ levels ∧ (Value.map level).isSelector ∧
      (level.get "root").text? = some name

variable {c : Clock} {context : Value}

theorem resolveLevels_congr {levels : List Value}
    (h : ∀ level ∈ levels, level.isSelector →
      Level.said c roots level = Level.said c others level) (a : Accumulator) :
    resolveLevels c roots context a levels = resolveLevels c others context a levels := by
  induction levels generalizing a with
  | nil => rfl
  | cons level rest ih =>
    have ih := ih fun l hl => h l (List.mem_cons_of_mem _ hl)
    cases hs : level.isSelector with
    | false => simp only [resolveLevels, hs]; rfl
    | true =>
      simp only [resolveLevels, hs, h level List.mem_cons_self hs, ih]

/-- Tables that agree on the roots of the selectors of a variable resolve it alike. -/
theorem resolve_congr {v : Value} (h : ∀ name, Names v name → roots.get? name = others.get? name) :
    resolve c roots v = resolve c others v := by
  cases hw : v.wire with
  | error f => rw [resolve_of_wire_error hw, resolve_of_wire_error hw]
  | ok w =>
    cases hl : levels? w with
    | none => rw [resolve_of_levels?_eq_none hw hl, resolve_of_levels?_eq_none hw hl]
    | some levels =>
      have hlevels := (levels?_eq_some_iff.1 hl).1
      have hsaid : ∀ level ∈ levels, level.isSelector →
          Level.said c roots level = Level.said c others level := by
        intro level hmem hs
        apply Level.said_congr
        rintro entries rfl name hname
        exact h name ⟨w, levels, hw, hlevels, entries, hmem, hs, hname⟩
      simp only [resolve, hw, Outcome.liftM_ok_bind, hl, resolveLevels_congr hsaid]

end Variable

namespace Style

/-- A selector in plain form that stands under a property of a style. -/
def Holds (v : Value) (selector : Entries) : Prop :=
  ∃ entries, v.wire = .ok (.map entries) ∧ ∃ e ∈ entries, e.2.wire = .ok (.map selector) ∧
    (Value.map selector).isSelector

/-- What a category is looked up by: the root of a selector, or what it starts from. -/
def categoryKey (byRoot : Bool) (selector : Entries) : Value :=
  if byRoot then selector.get "root"
  else if (selector.get "default").isNull then .map selector else selector.get "default"

/-- The category under a key, null if there is none or the key cannot be one. -/
def category (styles : Entries) (key : Value) : Value := (styles.lookup? key).getD .null

/-- Tables agree on whether the root of a selector is there, and then on the category it is looked
up in. -/
def AgreeOn (byRoot : Bool) (styles others selector : Entries) : Prop :=
  ∀ name, (selector.get "root").text? = some name →
    (styles.get? name).isSome = (others.get? name).isSome ∧
    ((styles.get? name).isSome → category styles (categoryKey byRoot selector) =
      category others (categoryKey byRoot selector))

/-- What a selector says once its category is found. -/
def readIn (byRoot : Bool) (selector : Entries) (category : Value) : Except Failure Value :=
  let default := selector.get "default"
  let keys := selector.get "keys"
  if byRoot then
    (category.at keys default).map fun found => if found.isNull then default else found
  else category.at keys .null

theorem lookup?_of_text? {key : Value} {name : String} (h : key.text? = some name) :
    styles.lookup? key = styles.get? name := by
  have hkey : key.isHashable = true := by
    cases key with
    | text _ => rfl
    | markup _ => rfl
    | _ => cases h
  have hequal : (fun e : Value × Value => e.1.equal key) = fun e => e.1.equal (.text name) := by
    funext e
    rw [Bool.eq_iff_iff, Value.equal_iff_of_text? h, Value.equal_text_iff]
  rw [Table.lookup?, if_pos hkey, Table.get?, Table.find?, Table.find?, hequal]

/-- A style table is asked for the root of a selector, and for one category. -/
theorem property_of_present {byRoot : Bool} {selector : Entries} {name : String}
    (hname : (selector.get "root").text? = some name) (hs : (styles.get? name).isSome) :
    property styles byRoot selector =
      readIn byRoot selector (category styles (categoryKey byRoot selector)) := by
  obtain ⟨found, hfound⟩ := Option.isSome_iff_exists.1 hs
  cases byRoot with
  | false => simp only [property, hname, Option.bind_some, hfound]; rfl
  | true =>
    have hcategory : category styles (categoryKey true selector) = found := by
      have hlookup : styles.lookup? (selector.get "root") = some found := by
        rw [lookup?_of_text? hname, hfound]
      exact congrArg (Option.getD · .null) hlookup
    rw [hcategory]
    simp only [property, hname, Option.bind_some, hfound]
    rfl

theorem property_of_absent {byRoot : Bool} {selector : Entries}
    (h : ∀ name, (selector.get "root").text? = some name → styles.get? name = none) :
    property styles byRoot selector = .ok (categoryKey false selector) := by
  have hroot : ((selector.get "root").text?.bind fun name => styles.get? name) = none :=
    Option.bind_eq_none_iff.2 h
  simp only [property, hroot]
  rfl

theorem property_congr {byRoot : Bool} {selector : Entries}
    (h : AgreeOn byRoot styles others selector) :
    property styles byRoot selector = property others byRoot selector := by
  by_cases hp : ∃ name, (selector.get "root").text? = some name ∧ (styles.get? name).isSome
  · obtain ⟨name, hname, hs⟩ := hp
    obtain ⟨hsome, hcategory⟩ := h name hname
    rw [property_of_present hname hs, property_of_present hname (hsome ▸ hs), hcategory hs]
  · have habsent : ∀ name, (selector.get "root").text? = some name → styles.get? name = none := by
      intro name hname
      exact Option.not_isSome_iff_eq_none.1 fun hs => hp ⟨name, hname, hs⟩
    rw [property_of_absent habsent, property_of_absent]
    intro name hname
    have hsome := (h name hname).1
    rw [habsent name hname] at hsome
    exact Option.isNone_iff_eq_none.1 (Option.isSome_eq_false_iff.1 hsome.symm)

theorem resolveEntry_congr {byRoot : Bool} {e : Value × Value}
    (h : ∀ selector, e.2.wire = .ok (.map selector) → (Value.map selector).isSelector →
      AgreeOn byRoot styles others selector) :
    resolveEntry styles byRoot e = resolveEntry others byRoot e := by
  cases hw : e.2.wire with
  | error f => rw [resolveEntry_of_wire_error hw, resolveEntry_of_wire_error hw]
  | ok w =>
    cases hs : w.isSelector with
    | false => rw [resolveEntry_of_other hw hs, resolveEntry_of_other hw hs]
    | true =>
      obtain ⟨selector, hw, hs⟩ := exists_selector hw hs
      rw [resolveEntry_of_selector hw hs, resolveEntry_of_selector hw hs,
        property_congr (h selector hw hs)]

/-- Tables that agree on the selectors of a style resolve it alike. -/
theorem resolve_congr {byRoot : Bool} {v : Value}
    (h : ∀ selector, Holds v selector → AgreeOn byRoot styles others selector) :
    resolve styles byRoot v = resolve others byRoot v := by
  have hentries {entries : Entries} (hw : v.wire = .ok (.map entries)) :
      resolveEntries styles byRoot entries = resolveEntries others byRoot entries := by
    have hall : ∀ e ∈ entries, resolveEntry styles byRoot e = resolveEntry others byRoot e := by
      intro e he
      exact resolveEntry_congr fun selector hs hselector =>
        h selector ⟨entries, hw, e, he, hs, hselector⟩
    rw [resolveEntries_eq_mapM, resolveEntries_eq_mapM, mapM_congr hall]
  cases hw : v.wire with
  | error f => rw [resolve_of_wire_error hw, resolve_of_wire_error hw]
  | ok w =>
    cases w with
    | map entries => rw [resolve_of_wire hw, resolve_of_wire hw, hentries hw]
    | _ => rw [resolve, resolve, hw]; rfl

/-- What a style names: the roots of its selectors, and what their categories are looked up by. -/
def Names (byRoot : Bool) (v key : Value) : Prop :=
  ∃ selector, Holds v selector ∧ ∃ name, (selector.get "root").text? = some name ∧
    (key = .text name ∨ key = categoryKey byRoot selector)

/-- Tables agree on a style if they hold the same under everything it names. -/
theorem agreeOn_of_names {byRoot : Bool} {v : Value}
    (h : ∀ key, Names byRoot v key → styles.find? key = others.find? key) {selector : Entries}
    (hs : Holds v selector) : AgreeOn byRoot styles others selector := by
  intro name hname
  have hroot : styles.get? name = others.get? name :=
    h _ ⟨selector, hs, name, hname, .inl rfl⟩
  have hkey := h _ ⟨selector, hs, name, hname, .inr rfl⟩
  refine ⟨by rw [hroot], fun _ => ?_⟩
  rw [category, category, Table.lookup?, Table.lookup?, hkey]

end Style

namespace Engine

/-- An engine with more merged into its registries, whether that succeeds or not. -/
def merged (host : Host) (e : Engine) (more : Additions) : Engine :=
  { e with registries := (e.registries.merge host.asTransform more).2 }

variable {host : Host} {e : Engine} {more : Additions}

theorem get?_roots_merged {name : String}
    (h : ∀ x ∈ Entries.given more.roots, x.1.text? ≠ some name) :
    (e.merged host more).registries.roots.get? name = e.registries.roots.get? name := by
  refine Registries.roots_merge_induction (P := fun t => t.get? name = _) host.asTransform ?_ rfl
  intro x hx t ht
  rw [Table.get?_insert, if_neg (mt Value.equal_text_iff.1 (h x hx)), ht]

theorem find?_styles_merged {key : Value}
    (h : ∀ x ∈ Entries.given more.styles, x.1.IsApart key) :
    (e.merged host more).registries.styles.find? key = e.registries.styles.find? key := by
  refine Registries.styles_merge_induction (P := fun t => t.find? key = _) host.asTransform ?_ rfl
  intro x hx t ht
  rw [Table.find?_insert_of_isApart (h x hx), ht]

/-- A variable resolves alike in all data that agrees on the roots it names, and a style in all
styles that agree on its roots and categories. So merging what they do not name never matters. -/
theorem resolve_reads_named (v : Value) :
    (∀ (c : Clock) (roots others : Entries),
      (∀ name, Variable.Names v name → roots.get? name = others.get? name) →
      Variable.resolve c roots v = Variable.resolve c others v) ∧
    (∀ (byRoot : Bool) (styles others : Entries),
      (∀ selector, Style.Holds v selector → Style.AgreeOn byRoot styles others selector) →
      Style.resolve styles byRoot v = Style.resolve others byRoot v) ∧
    (∀ (host : Host) (e : Engine) (more : Additions),
      (∀ x ∈ Entries.given more.roots, ∀ name, Variable.Names v name → x.1.text? ≠ some name) →
      (e.merged host more).resolveVariable host v = e.resolveVariable host v) ∧
    (∀ (host : Host) (e : Engine) (more : Additions),
      (∀ x ∈ Entries.given more.styles, ∀ key, Style.Names e.config.stylesByRoot.truthy v key →
        x.1.IsApart key) →
      (e.merged host more).resolveStyle v = e.resolveStyle v) := by
  refine ⟨?_, ?_, ?_, ?_⟩
  · intro c roots others h
    exact Variable.resolve_congr h
  · intro byRoot styles others h
    exact Style.resolve_congr h
  · intro host e more h
    apply Variable.resolve_congr
    intro name hname
    exact get?_roots_merged fun x hx => h x hx name hname
  · intro host e more h
    apply Style.resolve_congr
    intro selector hs
    apply Style.agreeOn_of_names ?_ hs
    intro key hkey
    exact find?_styles_merged fun x hx => h x hx key hkey

/-- A namespace with the name of a text that is found on the way does not matter, and neither does
one that a failing merge brings. -/
theorem resolve_reads_named_user :
    let user : Value := .map [(.text "root", .text "@user"), (.text "keys", .text "profile")]
    let name : Value := .map [(.text "root", .null), (.text "keys", .text "name")]
    let v : Value := .list [user, name]
    let data : Value := .map [(.text "profile", .map [(.text "name", .text "@state")])]
    let roots : Entries := [(.text "@user", data)]
    let others : Entries := [(.text "@state", .int 1), (.text "@user", data)]
    let color : Value := .map [(.text "root", .text "colors"), (.text "keys", .text "ink"),
      (.text "default", .text "dark")]
    let style : Value := .map [(.text "color", color)]
    let dark : Value := .map [(.text "ink", .text "black")]
    let styles : Entries := [(.text "colors", .null), (.text "dark", dark)]
    let recolored : Entries := [(.text "colors", dark), (.text "dark", dark)]
    let host : Host :=
      ⟨fun _ _ _ _ => .fail .notCallable, fun _ => .identity, 0, ⟨.first, none⟩, 0⟩
    let e : Engine := ⟨⟨roots, styles, [], []⟩, .standard, none⟩
    let more : Additions := ⟨.map [(.text "@state", .int 1)], .map [(.text "fonts", dark)], [],
      [(.text "Text", .value (.text "span"))]⟩
    Variable.resolve (e.clock host) roots v = Variable.resolve (e.clock host) others v ∧
      Style.resolve styles false style = Style.resolve recolored false style ∧
      (e.registries.merge host.asTransform more).1.result =
        .error (.notComponentEntry (.text "span")) ∧
      (e.merged host more).resolveVariable host v = e.resolveVariable host v ∧
      (e.merged host more).resolveStyle style = .ok [(.text "color", .text "black")] := by
  intro user name v data roots others color style dark styles recolored host e more
  obtain ⟨hvariable, -, hroots, -⟩ := resolve_reads_named v
  obtain ⟨-, hstyle, -, hstyles⟩ := resolve_reads_named style
  have hnames : ∀ s, Variable.Names v s → s = "@user" := by
    rintro s ⟨w, levels, hw, hlevels, level, hmem, -, hroot⟩
    obtain rfl := Except.ok.inj hw
    obtain rfl := Option.some.inj hlevels
    rcases List.mem_cons.1 hmem with hlevel | hlevel
    · obtain rfl := Value.map.inj hlevel
      exact (Option.some.inj hroot).symm
    · obtain rfl := Value.map.inj (List.mem_singleton.1 hlevel)
      cases hroot
  have hholds : ∀ selector, Style.Holds style selector → Value.map selector = color := by
    rintro selector ⟨entries, hentries, x, hx, hwire, -⟩
    obtain rfl := Value.map.inj (Except.ok.inj hentries)
    obtain rfl := List.mem_singleton.1 hx
    exact (Except.ok.inj hwire).symm
  have hkeys : ∀ key, Style.Names false style key → key = .text "colors" ∨ key = .text "dark" := by
    rintro key ⟨selector, hselector, s, hroot, hkey⟩
    obtain rfl := Value.map.inj (hholds selector hselector)
    obtain rfl := Option.some.inj hroot
    exact hkey
  refine ⟨?_, ?_, rfl, ?_, ?_⟩
  · apply hvariable
    intro s hs
    rw [hnames s hs]
    rfl
  · apply hstyle
    intro selector hselector s hroot
    obtain rfl := Value.map.inj (hholds selector hselector)
    obtain rfl := Option.some.inj hroot
    exact ⟨rfl, fun _ => rfl⟩
  · apply hroots
    intro x hx s hs
    obtain rfl := List.mem_singleton.1 hx
    rw [hnames s hs]
    decide
  · rw [hstyles]
    · rfl
    · intro x hx key hkey
      obtain rfl := List.mem_singleton.1 hx
      apply Value.isApart_of_text? rfl
      rcases hkeys key hkey with rfl | rfl <;> decide

end Engine
end ViewDoc
