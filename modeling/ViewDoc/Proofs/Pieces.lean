import ViewDoc.Proofs.Reading

/-!
Pages piece by piece.

A piece is a tag with the text behind it. As long as nothing in it could be taken for a delimiter,
a page of pieces is read back as the trees that the pieces spell.
-/

namespace ViewDoc.Html

/-- Holds no character that delimits tags or the values of attributes. -/
def IsQuiet (cs : List Char) : Prop := ∀ c ∈ cs, c ≠ '<' ∧ c ≠ '>' ∧ c ≠ '\x22' ∧ c ≠ '\x27'

theorem isQuiet_nil : IsQuiet [] := by simp [IsQuiet]

theorem isQuiet_escapeChars (cs : List Char) : IsQuiet (escapeChars cs) := by
  intro c hc
  obtain ⟨d, -, hd⟩ := List.mem_flatMap.1 hc
  exact escapeChar_safe hd

/-- What cannot stand in a tag's name: blanks, slashes and what is escaped. -/
def nameBreakers : List Char := [' ', '/', '<', '>', '&', '\x22', '\x27']

def IsTagName (name : String) : Prop := ∀ c ∈ name.toList, c ∉ nameBreakers

theorem IsTagName.isQuiet {name : String} (h : IsTagName name) : IsQuiet name.toList := by
  intro c hc
  have hb := h c hc
  simp only [nameBreakers, List.mem_cons, List.not_mem_nil, or_false, not_or] at hb
  obtain ⟨-, -, hlt, hgt, -, hquote, happ⟩ := hb
  exact ⟨hlt, hgt, hquote, happ⟩

theorem isTagName_of_alphanum {name : String}
    (h : (name.toList.all fun c => c.isAlphanum || c == '-') = true) : IsTagName name := by
  intro c hc hb
  have hc := List.all_eq_true.1 h c hc
  simp only [nameBreakers, List.mem_cons, List.not_mem_nil, or_false] at hb
  rcases hb with rfl | rfl | rfl | rfl | rfl | rfl | rfl <;> revert hc <;> decide

structure Attribute where
  name : List Char
  /-- Nothing for an attribute that is its name alone. -/
  value : Option (List Char)

namespace Attribute

def chars (a : Attribute) : List Char :=
  match a.value with
  | some v => a.name ++ '=' :: '\x22' :: (v ++ ['\x22'])
  | none => a.name

def IsQuiet (a : Attribute) : Prop := Html.IsQuiet a.name ∧ ∀ v ∈ a.value, Html.IsQuiet v

end Attribute

inductive Tag where
  | start (name : String) (attributes : List Attribute)
  | stop (name : String)

namespace Tag

/-- What stands between the brackets. -/
def inside : Tag → List Char
  | start name attributes => name.toList ++ attributes.flatMap fun a => ' ' :: a.chars
  | stop name => '/' :: name.toList

def word : Tag → String
  | start name _ => name
  | stop name => "/" ++ name

def IsQuiet : Tag → Prop
  | start name attributes => Html.IsQuiet name.toList ∧ ∀ a ∈ attributes, a.IsQuiet
  | stop name => Html.IsQuiet name.toList

/-- Quotes may stand inside a tag, but no brackets. -/
theorem IsQuiet.no_brackets {tag : Tag} (h : tag.IsQuiet) {c : Char} (hc : c ∈ tag.inside) :
    c ≠ '<' ∧ c ≠ '>' := by
  have of_quiet {cs : List Char} (hq : Html.IsQuiet cs) (hcs : c ∈ cs) : c ≠ '<' ∧ c ≠ '>' :=
    ⟨(hq c hcs).1, (hq c hcs).2.1⟩
  cases tag with
  | stop name =>
    rcases List.mem_cons.1 hc with rfl | hc
    · decide
    · exact of_quiet h hc
  | start name attributes =>
    rcases List.mem_append.1 hc with hc | hc
    · exact of_quiet h.1 hc
    obtain ⟨a, ha, hc⟩ := List.mem_flatMap.1 hc
    obtain ⟨hname, hvalue⟩ := h.2 a ha
    rcases List.mem_cons.1 hc with rfl | hc
    · decide
    unfold Attribute.chars at hc
    cases hv : a.value with
    | none =>
      rw [hv] at hc
      exact of_quiet hname hc
    | some v =>
      rw [hv] at hc
      simp only [List.mem_append, List.mem_cons, List.not_mem_nil, or_false] at hc
      rcases hc with hc | rfl | rfl | hc | rfl
      · exact of_quiet hname hc
      · decide
      · decide
      · exact of_quiet (hvalue v hv) hc
      · decide

end Tag

/-- A tag and the text up to the next one. -/
structure Piece where
  tag : Tag
  behind : List Char

namespace Piece

def chars (p : Piece) : List Char := '<' :: (p.tag.inside ++ '>' :: p.behind)

def IsQuiet (p : Piece) : Prop := p.tag.IsQuiet ∧ Html.IsQuiet p.behind

def token (p : Piece) : Token := ⟨p.tag.inside, p.behind⟩

end Piece

/-- Text is read up to where it ends or the next tag begins. -/
theorem scan_append {cs rest : List Char} (h : IsQuiet cs) :
    scan (cs ++ rest) = (scan rest).map fun (text, tokens) => (cs ++ text, tokens) := by
  induction cs with
  | nil => simp
  | cons c cs ih =>
    obtain ⟨hlt, hgt, -⟩ := h c List.mem_cons_self
    rw [List.cons_append, scan, if_neg hlt, if_neg hgt,
      ih fun d hd => h d (List.mem_cons_of_mem c hd)]
    cases scan rest <;> rfl

theorem scanTag_append {cs rest : List Char} (h : ∀ c ∈ cs, c ≠ '<' ∧ c ≠ '>') :
    scanTag (cs ++ '>' :: rest) =
      (scan rest).map fun (text, tokens) => (⟨cs, text⟩, tokens) := by
  induction cs with
  | nil => simp [scanTag]
  | cons c cs ih =>
    obtain ⟨hlt, hgt⟩ := h c List.mem_cons_self
    rw [List.cons_append, scanTag, if_neg hgt, if_neg hlt,
      ih fun d hd => h d (List.mem_cons_of_mem c hd)]
    cases scan rest <;> rfl

theorem scan_pieces {pieces : List Piece} (h : ∀ p ∈ pieces, p.IsQuiet) :
    scan (pieces.flatMap Piece.chars) = some ([], pieces.map Piece.token) := by
  induction pieces with
  | nil => rfl
  | cons p pieces ih =>
    obtain ⟨htag, hbehind⟩ := h p List.mem_cons_self
    have hrest := ih fun q hq => h q (List.mem_cons_of_mem p hq)
    have hchars : (p :: pieces).flatMap Piece.chars =
        '<' :: (p.tag.inside ++ '>' :: (p.behind ++ pieces.flatMap Piece.chars)) := by
      simp [Piece.chars]
    rw [hchars, scan, if_pos rfl, scanTag_append fun c hc => htag.no_brackets hc,
      scan_append hbehind, hrest]
    simp [Piece.token]

/-- How pieces spell trees, one after the other. -/
inductive Spells : List Tree → List Piece → Prop
  | nil : Spells [] []
  | void {name : String} {attributes : List Attribute} {later : List Tree} {pieces : List Piece} :
      IsTagName name → voidElements.contains name = true → Spells later pieces →
      Spells (.element name [] :: later) (⟨.start name attributes, []⟩ :: pieces)
  /-- An element begins with text. -/
  | element {name : String} {attributes : List Attribute} {behind : List Char}
      {inside later : List Tree} {inner pieces : List Piece} :
      IsTagName name → voidElements.contains name = false → Spells inside inner →
      Spells later pieces →
      Spells (.element name (Tree.ofText behind ++ inside) :: later)
        (⟨.start name attributes, behind⟩ :: (inner ++ ⟨.stop name, []⟩ :: pieces))

namespace Spells

theorem append {ts us : List Tree} {ps qs : List Piece} (h : Spells ts ps) (k : Spells us qs) :
    Spells (ts ++ us) (ps ++ qs) := by
  induction h with
  | nil => exact k
  | void hname hvoid _ ih => exact .void hname hvoid ih
  | element hname hvoid hinside _ _ ih =>
    rw [List.cons_append, List.cons_append, List.append_assoc, List.cons_append]
    exact .element hname hvoid hinside ih

theorem words {ts : List Tree} {ps : List Piece} (h : Spells ts ps) :
    (ps.map fun p => p.tag.word) = Tree.wordsAll ts := by
  induction h with
  | nil => rfl
  | void _ hvoid _ ih =>
    simp only [List.map_cons, ih, Tree.wordsAll, Tree.words, hvoid, if_true]
    rfl
  | element _ hvoid _ _ ihinside ihlater =>
    simp only [List.map_cons, List.map_append, ihinside, ihlater, Tree.wordsAll, Tree.words,
      Tree.wordsAll_append, Tree.wordsAll_ofText, hvoid]
    simp [Tag.word]

end Spells

theorem firstWord_append {name : String} (h : IsTagName name) {rest : List Char}
    (hrest : rest.takeWhile (· ≠ ' ') = []) : firstWord (name.toList ++ rest) = name := by
  have hall : ∀ c ∈ name.toList, decide (c ≠ ' ') = true := by
    intro c hc
    have hb := h c hc
    simp only [nameBreakers, List.mem_cons, not_or] at hb
    exact decide_eq_true hb.1
  rw [firstWord, List.takeWhile_append_of_pos hall, hrest, List.append_nil, String.ofList_toList]

theorem firstWord_start {name : String} (h : IsTagName name) (attributes : List Attribute) :
    firstWord (Tag.start name attributes).inside = name := by
  apply firstWord_append h
  cases attributes <;> simp

theorem inside_start_ne {name : String} (h : IsTagName name) (attributes : List Attribute)
    (cs : List Char) : (Tag.start name attributes).inside ≠ '/' :: cs := by
  intro (hi : name.toList ++ attributes.flatMap (fun a => ' ' :: a.chars) = '/' :: cs)
  cases hname : name.toList with
  | nil =>
    rw [hname] at hi
    cases attributes with
    | nil => cases hi
    | cons a attributes => exact absurd (List.cons.inj hi).1 (by decide)
  | cons c rest =>
    rw [hname] at hi
    have hc : c ∉ nameBreakers := h c (by simp [hname])
    rw [(List.cons.inj hi).1] at hc
    exact hc (by decide)

namespace Progress

theorem take_start {name : String} (h : IsTagName name) (attributes : List Attribute)
    (behind : List Char) (p : Progress) :
    p.take (Piece.token ⟨.start name attributes, behind⟩) =
      if voidElements.contains name then
        some { p with latest := p.latest ++ .element name [] :: Tree.ofText behind }
      else some ⟨(name, p.latest) :: p.started, Tree.ofText behind⟩ := by
  have hword := firstWord_start h attributes
  unfold take Piece.token
  split
  · rename_i cs hi
    exact absurd hi (inside_start_ne h attributes cs)
  · simp only [hword]

theorem take_stop {name : String} (h : IsTagName name) (behind : List Char)
    (started : List (String × List Tree)) (before latest : List Tree) :
    take ⟨(name, before) :: started, latest⟩ (Piece.token ⟨.stop name, behind⟩) =
      some ⟨started, before ++ .element name latest :: Tree.ofText behind⟩ := by
  have hword : firstWord name.toList = name := by
    have hempty : firstWord (name.toList ++ []) = name := firstWord_append h rfl
    rwa [List.append_nil] at hempty
  simp only [take, Piece.token, Tag.inside, hword, if_true]

/-- Spelled trees come behind what has been read before, whatever is still to be ended. -/
theorem foldlM_take_of_spells {ts : List Tree} {pieces : List Piece} (h : Spells ts pieces)
    (p : Progress) :
    (pieces.map Piece.token).foldlM take p = some { p with latest := p.latest ++ ts } := by
  -- the elements that are still to be ended differ between an element and what is inside it
  induction h generalizing p with
  | nil => simp
  | void hname hvoid _ ih =>
    rw [List.map_cons, List.foldlM_cons, take_start hname, if_pos hvoid]
    simp [ih, Tree.ofText]
  | @element name attributes behind inside later inner pieces hname hvoid _ _ ihinside ihlater =>
    have hstart := take_start hname attributes behind p
    rw [hvoid, if_neg Bool.false_ne_true] at hstart
    have hstop := take_stop hname [] p.started p.latest (Tree.ofText behind ++ inside)
    have hinner := ihinside ⟨(name, p.latest) :: p.started, Tree.ofText behind⟩
    simp only [List.map_cons, List.map_append, List.foldlM_cons, List.foldlM_append, hstart, hinner,
      hstop, ihlater, Option.bind_eq_bind, Option.bind_some]
    simp [Tree.ofText]

end Progress

/-- A page of quiet pieces is read as the trees that they spell. -/
theorem read_of_spells {ts : List Tree} {pieces : List Piece} (h : Spells ts pieces)
    (hquiet : ∀ p ∈ pieces, p.IsQuiet) : read (pieces.flatMap Piece.chars) = some ts := by
  rw [read, scan_pieces hquiet]
  simp [Progress.foldlM_take_of_spells h, Tree.ofText]

end ViewDoc.Html
