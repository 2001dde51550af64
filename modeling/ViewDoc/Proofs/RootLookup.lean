import ViewDoc.Proofs.NamedData
import ViewDoc.Proofs.SplitPaths
import ViewDoc.Proofs.StyleProperties

/-!
The two ways to look up a style.

Both walk the same path, by default with null for what is missing and by root with the default of
the selector. A walk that ends elsewhere than at null has missed nothing, since null cannot be
indexed, so its default does not matter. By root, a selector says what a level of a variable says.
-/

namespace ViewDoc

namespace Path

theorem walk_null_null (p : List String) : walk .null .null p = .null := by
  cases p with
  | nil => rfl
  | cons s rest => exact walk_cons_of_refused rfl rest

/-- With null as its default, a walk that ends elsewhere finds all its segments. -/
theorem finds_of_walk_null {v : Value} {p : List String} (h : (walk .null v p).isNull = false) :
    Finds v p (walk .null v p) := by
  induction p generalizing v with
  | nil => exact .here v
  | cons s rest ih =>
    cases hs : step v s with
    | found w =>
      rw [walk_cons_of_found hs] at h ⊢
      exact .found hs (ih h)
    | absent =>
      -- the walk would have gone on from null
      rw [walk_cons_of_absent hs, walk_null_null] at h
      cases h
    | refused =>
      rw [walk_cons_of_refused hs] at h
      cases h

/-- What is found with null as the default is found with any other. -/
theorem at_of_at_null {v path w : Value} (h : v.at path .null = .ok w) (hw : w.isNull = false)
    (default : Value) : v.at path default = .ok w := by
  cases hs : path.isShowable with
  | false =>
    rw [Value.at_eq_error hs] at h
    cases h
  | true =>
    rw [Value.at_eq_ok hs] at h
    obtain rfl := Except.ok.inj h
    rw [Value.at_eq_ok hs, walk_of_finds (finds_of_walk_null hw)]

end Path

theorem Value.not_isNull_of_text? {v : Value} {name : String} (h : v.text? = some name) :
    v.isNull = false := by
  cases v with
  | null => cases h
  | _ => rfl

namespace Style

variable {styles : Entries}

/-- The root of a selector names a category. -/
def HasCategory (styles selector : Entries) : Prop :=
  ∃ root, (selector.get "root").text? = some root ∧ (styles.get? root).isSome

/-- The root of a selector names a category, and its default is the same name. -/
def StartsAtRoot (styles selector : Entries) : Prop :=
  ∃ root, (selector.get "root").text? = some root ∧ (styles.get? root).isSome ∧
    (selector.get "default").text? = some root

theorem category_of_text? {key : Value} {name : String} (h : key.text? = some name) :
    category styles key = (styles.get? name).getD .null := by
  rw [category, lookup?_of_text? h]

theorem property_of_startsAtRoot {selector : Entries} {w : Value}
    (h : StartsAtRoot styles selector) (hp : property styles false selector = .ok w)
    (hw : w.isNull = false) : property styles true selector = .ok w := by
  obtain ⟨root, hroot, hsome, hdefault⟩ := h
  have hkey : categoryKey false selector = selector.get "default" := by
    simp only [categoryKey, Bool.false_eq_true, if_false, Value.not_isNull_of_text? hdefault]
  have hcategory : category styles (categoryKey true selector) =
      category styles (categoryKey false selector) := by
    rw [hkey, category_of_text? hdefault]
    exact category_of_text? hroot
  rw [property_of_present hroot hsome] at hp ⊢
  have hat : (category styles (categoryKey false selector)).at (selector.get "keys")
      (selector.get "default") = .ok w := Path.at_of_at_null hp hw _
  rw [hcategory]
  simp only [readIn, if_true, hat, ok_map, hw, Bool.false_eq_true, if_false]

/-- By root, a selector is a level of a variable whose data are the styles. -/
theorem property_eq_body {selector : Entries} (hs : (Value.map selector).isSelector = true)
    (h : HasCategory styles selector) :
    property styles true selector = Level.body styles selector := by
  obtain ⟨root, hroot, hsome⟩ := h
  obtain ⟨tree, htree⟩ := Option.isSome_iff_exists.1 hsome
  have hkeys : selector.contains (.text "keys") = true := (Bool.and_eq_true_iff.1 hs).2
  simp only [property, Level.body, hroot, Option.bind_some, htree, hkeys, if_true]

theorem property_of_resolveEntry {byRoot : Bool} {e r : Value × Value} {selector : Entries}
    (hw : e.2.wire = .ok (.map selector)) (hs : (Value.map selector).isSelector = true)
    (h : resolveEntry styles byRoot e = .ok [r]) :
    property styles byRoot selector = .ok r.2 ∧ r.1 = e.1 := by
  rw [resolveEntry_of_selector hw hs] at h
  obtain ⟨w, hp, hr⟩ := map_eq_ok_iff.1 h
  obtain rfl := List.singleton_inj.1 hr
  exact ⟨hp, rfl⟩

/-- Both ways fail on the same styles. -/
theorem exists_resolveEntries_by_root {entries plain : Entries}
    (h : resolveEntries styles false entries = .ok plain) :
    ∃ rooted, resolveEntries styles true entries = .ok rooted := by
  cases hr : resolveEntries styles true entries with
  | ok rooted => exact ⟨rooted, rfl⟩
  | error f =>
    have hplain : resolveEntries styles false entries = .error f :=
      resolveEntries_eq_error_iff.2 (resolveEntries_eq_error_iff.1 hr)
    rw [hplain] at h
    cases h

/-- An entry that starts at its root keeps what it has, looked up by root. -/
def Keeps (styles : Entries) (e plain rooted : Value × Value) : Prop :=
  ∀ selector, e.2.wire = .ok (.map selector) → StartsAtRoot styles selector →
    plain.2.isNull = false → rooted = plain

theorem keeps_of_resolveEntry {e plain rooted : Value × Value} (hs : e.2.isLevel = true)
    (hplain : resolveEntry styles false e = .ok [plain])
    (hrooted : resolveEntry styles true e = .ok [rooted]) : Keeps styles e plain rooted := by
  intro selector hw hstart hfound
  have hselector : (Value.map selector).isSelector = true := Value.isLevel_of_wire hw ▸ hs
  obtain ⟨hp, hname⟩ := property_of_resolveEntry hw hselector hplain
  obtain ⟨hr, hname'⟩ := property_of_resolveEntry hw hselector hrooted
  rw [property_of_startsAtRoot hstart hp hfound] at hr
  exact Prod.ext (hname'.trans hname.symm) (Except.ok.inj hr).symm

theorem forall₂_both {α β γ : Type} {R : α → β → Prop} {S : α → γ → Prop} {as : List α}
    {bs : List β} {cs : List γ} (hb : List.Forall₂ R as bs) (hc : List.Forall₂ S as cs) :
    List.Forall₂ (fun a p => R a p.1 ∧ S a p.2) as (bs.zip cs) := by
  induction hb generalizing cs with
  | nil => exact .nil
  | cons hr _ ih =>
    cases hc with
    | cons hs hrest => exact .cons ⟨hr, hs⟩ (ih hrest)

/-- Looked up by root, a style has the same properties, with everything that selectors whose default
is their root find anyway; a selector with a category says what it says as a level. -/
theorem resolve_by_root (styles : Entries) {v : Value} {entries : Entries}
    (hv : v.wire = .ok (.map entries)) :
    (∀ plain, resolve styles false v = .ok plain → ∃ rooted : Entries,
      resolve styles true v = .ok rooted ∧ rooted.keys = plain.keys ∧
      List.Forall₂ (fun e p => Keeps styles e p.1 p.2) (selectors entries) (plain.zip rooted)) ∧
    (∀ e ∈ selectors entries, ∀ selector, e.2.wire = .ok (.map selector) →
      HasCategory styles selector →
      resolve styles true (.map [e]) = (Level.body styles selector).map fun w => [(e.1, w)]) := by
  refine ⟨?_, ?_⟩
  · intro plain hplain
    rw [resolve_of_wire hv] at hplain ⊢
    obtain ⟨rooted, hrooted⟩ := exists_resolveEntries_by_root hplain
    refine ⟨rooted, hrooted, ?_, ?_⟩
    · rw [keys_of_resolveEntries hrooted, keys_of_resolveEntries hplain]
    · have hall : ∀ e ∈ selectors entries, e.2.isLevel = true := by
        intro e he
        exact (List.mem_filter.1 he).2
      have hboth := forall₂_both (forall₂_of_resolveEntries hplain)
        (forall₂_of_resolveEntries hrooted)
      refine ((List.forall₂_and_left _ _).2 ⟨hall, hboth⟩).imp ?_
      rintro e p ⟨hs, ⟨-, hp⟩, -, hr⟩
      rw [resolveEntries_singleton] at hp hr
      exact keeps_of_resolveEntry hs hp hr
  · intro e he selector hw h
    have hs : (Value.map selector).isSelector = true :=
      Value.isLevel_of_wire hw ▸ (List.mem_filter.1 he).2
    rw [resolve_map, resolveEntries_singleton, resolveEntry_of_selector hw hs,
      property_eq_body hs h]

/-- A selector that finds its property either way and one without a category; and one whose path
leaves its category, which by root goes on in its default. -/
theorem resolve_by_root_page :
    let colors : Value := .map [(.text "ink", .text "black")]
    let styles : Entries := [(.text "colors", colors)]
    let ink : Value := .map [(.text "root", .text "colors"), (.text "keys", .text "ink"),
      (.text "default", .text "colors")]
    let fonts : Value := .map [(.text "root", .text "fonts"), (.text "keys", .text "ink"),
      (.text "default", .text "colors")]
    let missing : Value := .map [(.text "root", .text "colors"),
      (.text "keys", .text "missing.length"), (.text "default", .text "colors")]
    let page : Entries := [(.text "color", ink), (.text "font", fonts)]
    let plain : Entries := [(.text "color", .text "black"), (.text "font", .text "colors")]
    let width : Value × Value := (.text "width", missing)
    resolve styles false (.map page) = .ok plain ∧
      (∃ rooted : Entries, resolve styles true (.map page) = .ok rooted ∧
        rooted.keys = plain.keys ∧ rooted.head? = some (.text "color", .text "black")) ∧
      resolve styles false (.map [width]) = .ok [(.text "width", .null)] ∧
      resolve styles true (.map [width]) = .ok [(.text "width", .int 6)] := by
  intro colors styles ink fonts missing page plain width
  have hplain : resolve styles false (.map page) = .ok plain := rfl
  obtain ⟨hkeeps, -⟩ := resolve_by_root styles (v := .map page) rfl
  obtain ⟨rooted, hrooted, hkeys, hpairs⟩ := hkeeps plain hplain
  have hhead : rooted.head? = some (.text "color", .text "black") := by
    have hselectors : selectors page = [(.text "color", ink), (.text "font", fonts)] := rfl
    rw [hselectors] at hpairs
    cases rooted with
    | nil => cases hpairs
    | cons r rest =>
      cases hpairs with
      | cons hcolor _ => exact congrArg some (hcolor _ rfl ⟨"colors", rfl, rfl, rfl⟩ rfl)
  have hsegments : Path.segments "missing.length" = ["missing", "length"] := by decide
  have hnull : colors.at (.text "missing.length") .null = .ok .null := by
    rw [Path.at_text, hsegments, Path.walk_cons_of_absent rfl, Path.walk_null_null]
  have hlength : colors.at (.text "missing.length") (.text "colors") = .ok (.int 6) := by
    rw [Path.at_text, hsegments, Path.walk_cons_of_absent rfl]
    rfl
  have hbody : Level.body styles [(.text "root", .text "colors"),
      (.text "keys", .text "missing.length"), (.text "default", .text "colors")] = .ok (.int 6) :=
    congrArg (Except.map fun w : Value => if w.isNull then Value.text "colors" else w) hlength
  obtain ⟨-, hlevel⟩ := resolve_by_root styles (v := .map [width]) rfl
  have hwidth := hlevel width (.head _) _ rfl ⟨"colors", rfl, rfl⟩
  refine ⟨hplain, ⟨rooted, hrooted, hkeys, hhead⟩, ?_, ?_⟩
  · rw [resolve_map, resolveEntries_singleton, resolveEntry_of_selector rfl rfl]
    exact congrArg (Except.map fun w => [(Value.text "width", w)]) hnull
  · rw [hwidth, hbody, ok_map]

end Style
end ViewDoc
