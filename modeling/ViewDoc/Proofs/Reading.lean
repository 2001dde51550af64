import ViewDoc.Html

/-!
Reading HTML back with little knowledge.

A tag stands between angle brackets and goes by its first word. One with a slash in front ends the
element that was begun last; void elements have no end. References to escaped characters are undone
in text.
-/

namespace ViewDoc.Html

def unescape : List Char → List Char
  | '&' :: 'a' :: 'm' :: 'p' :: ';' :: rest => '&' :: unescape rest
  | '&' :: 'l' :: 't' :: ';' :: rest => '<' :: unescape rest
  | '&' :: 'g' :: 't' :: ';' :: rest => '>' :: unescape rest
  | '&' :: '#' :: '3' :: '4' :: ';' :: rest => '\x22' :: unescape rest
  | '&' :: '#' :: '3' :: '9' :: ';' :: rest => '\x27' :: unescape rest
  | c :: rest => c :: unescape rest
  | [] => []

theorem unescape_cons {c : Char} (h : c ≠ '&') (rest : List Char) :
    unescape (c :: rest) = c :: unescape rest := by
  rw [unescape] <;> simp [h]

theorem unescape_escapeChar (c : Char) (rest : List Char) :
    unescape (escapeChar c ++ rest) = c :: unescape rest := by
  by_cases hamp : c = '&'
  · subst hamp
    simp [escapeChar, unescape]
  by_cases hlt : c = '<'
  · subst hlt
    simp [escapeChar, unescape]
  by_cases hgt : c = '>'
  · subst hgt
    simp [escapeChar, unescape]
  by_cases hquote : c = '\x22'
  · subst hquote
    simp [escapeChar, unescape]
  by_cases happ : c = '\x27'
  · subst happ
    simp [escapeChar, unescape]
  have h : escapeChar c = [c] := by simp [escapeChar, hamp, hlt, hgt, hquote, happ]
  rw [h, List.singleton_append, unescape_cons hamp]

theorem unescape_escapeChars (cs : List Char) : unescape (escapeChars cs) = cs := by
  induction cs with
  | nil => rfl
  | cons c cs ih =>
    have h : escapeChars (c :: cs) = escapeChar c ++ escapeChars cs := List.flatMap_cons
    rw [h, unescape_escapeChar, ih]

theorem escapeChars_eq_nil {cs : List Char} (h : escapeChars cs = []) : cs = [] := by
  rw [← unescape_escapeChars cs, h, unescape]

/-- Elements by their tags, and the texts between them. -/
inductive Tree where
  | text (s : String)
  | element (tag : String) (inside : List Tree)

namespace Tree

mutual

/-- The first words of all tags of a tree, with their slashes. -/
def words : Tree → List String
  | text _ => []
  | element tag inside =>
    if voidElements.contains tag then [tag] else tag :: (wordsAll inside ++ ["/" ++ tag])

def wordsAll : List Tree → List String
  | [] => []
  | t :: ts => words t ++ wordsAll ts

end

theorem wordsAll_append (ts us : List Tree) : wordsAll (ts ++ us) = wordsAll ts ++ wordsAll us := by
  induction ts with
  | nil => rfl
  | cons t ts ih => simp [wordsAll, ih]

/-- The text in a place of a page; an empty one is none. -/
def ofText (cs : List Char) : List Tree :=
  if cs.isEmpty then [] else [.text (String.ofList (unescape cs))]

theorem ofText_escapeChars (s : String) :
    ofText (escapeChars s.toList) = if s.isEmpty then [] else [.text s] := by
  rw [ofText]
  by_cases hs : s.toList = []
  · have he : s.isEmpty = true := by simpa using hs
    simp [hs, he, escapeChars]
  · have he : s.isEmpty = false := by simpa using hs
    have h : escapeChars s.toList ≠ [] := fun h => hs (escapeChars_eq_nil h)
    simp [he, h, unescape_escapeChars]

@[simp] theorem wordsAll_ofText (cs : List Char) : wordsAll (ofText cs) = [] := by
  rw [ofText]
  split <;> rfl

end Tree

/-- A tag without its brackets, and the text up to the next one. -/
structure Token where
  inside : List Char
  behind : List Char

mutual

/-- The text in front of the first tag, and all tags. -/
def scan : List Char → Option (List Char × List Token)
  | [] => some ([], [])
  | c :: rest =>
    if c = '<' then (scanTag rest).map fun (token, tokens) => ([], token :: tokens)
    else if c = '>' then none
    else (scan rest).map fun (text, tokens) => (c :: text, tokens)

/-- Goes on inside a tag. -/
def scanTag : List Char → Option (Token × List Token)
  | [] => none
  | c :: rest =>
    if c = '>' then (scan rest).map fun (text, tokens) => (⟨[], text⟩, tokens)
    else if c = '<' then none
    else
      (scanTag rest).map fun (token, tokens) =>
        ({ token with inside := c :: token.inside }, tokens)

end

/-- What has been read: the elements that are not ended, each with what stands before it, and what
stands in the last of them so far. -/
structure Progress where
  started : List (String × List Tree)
  latest : List Tree

def firstWord (cs : List Char) : String := String.ofList (cs.takeWhile (· ≠ ' '))

/-- Takes up a tag and the text behind it. -/
def Progress.take (p : Progress) (token : Token) : Option Progress :=
  match token.inside with
  | '/' :: name =>
    match p.started with
    | (tag, before) :: started =>
      if firstWord name = tag then
        some ⟨started, before ++ .element tag p.latest :: Tree.ofText token.behind⟩
      else none
    | [] => none
  | name =>
    let tag := firstWord name
    if voidElements.contains tag then
      some { p with latest := p.latest ++ .element tag [] :: Tree.ofText token.behind }
    else some ⟨(tag, p.latest) :: p.started, Tree.ofText token.behind⟩

/-- The trees that a page spells, if all its elements are ended in order. -/
def read (cs : List Char) : Option (List Tree) := do
  let (text, tokens) ← scan cs
  let p ← tokens.foldlM Progress.take ⟨[], Tree.ofText text⟩
  if p.started.isEmpty then some p.latest else none

end ViewDoc.Html
