import Mathlib.Data.List.Infix
import ViewDoc.Proofs.Results
import ViewDoc.Toml

/-!
What readers of TOML leave of a text, and when they find too many digits.

A reader takes a part off the front, so what it leaves is an end of the text, and a long number that
one reader meets stands in the text that the first of them was given. Main statement: a document is
refused for the digits of a number only if more digits than can be read stand in it in a row.
-/

namespace ViewDoc.Toml

/-- A run of digits that is too long to be read as a number. -/
structure IsLong (run : List Char) : Prop where
  digits : ∀ c ∈ run, c.isDigit ∨ c = '_'
  many : Text.digitLimit < run.countP Char.isDigit

def HasLong (cs : List Char) : Prop := ∃ run, run <:+: cs ∧ IsLong run

theorem HasLong.mono {cs cs' : List Char} (h : HasLong cs) (hcs : cs <:+: cs') : HasLong cs' := by
  obtain ⟨run, hrun, hlong⟩ := h
  exact ⟨run, hrun.trans hcs, hlong⟩

section Readers

variable {α β : Type} {cs cs' : List Char}

/-- What a reader leaves, if it takes something, is an end of the text. -/
def LeavesEnd (left : α → List Char) (cs : List Char) (r : Option α) : Prop :=
  ∀ a, r = some a → left a <:+ cs

/-- A reader leaves an end of the text, and it finds too many digits only where they are. -/
structure ReadsFrom (left : α → List Char) (cs : List Char) (r : Except Fault α) : Prop where
  suffix : ∀ a, r = .ok a → left a <:+ cs
  long : r = .error .tooManyDigits → HasLong cs

variable {left : α → List Char} {left' : β → List Char}

namespace LeavesEnd

theorem none : LeavesEnd left cs none := by
  intro a h
  cases h

theorem some {a : α} (h : left a <:+ cs) : LeavesEnd left cs (some a) := by
  intro b hb
  cases hb
  exact h

theorem mono {r : Option α} (h : LeavesEnd left cs r) (hcs : cs <:+ cs') :
    LeavesEnd left cs' r :=
  fun a ha => (h a ha).trans hcs

/-- One reader after the other. -/
theorem bind {x : Option α} {f : α → Option β} (h : LeavesEnd left cs x)
    (hf : ∀ a, LeavesEnd left' (left a) (f a)) : LeavesEnd left' cs (x >>= f) := by
  intro b hb
  obtain ⟨a, ha, hb⟩ := Option.bind_eq_some_iff.1 hb
  exact (hf a b hb).trans (h a ha)

end LeavesEnd

namespace ReadsFrom

theorem ok {a : α} (h : left a <:+ cs) : ReadsFrom left cs (.ok a) := by
  refine ⟨?_, fun hlong => by cases hlong⟩
  intro b hb
  cases hb
  exact h

theorem invalid : ReadsFrom left cs (.error .invalid) :=
  ⟨fun _ h => (by cases h), fun h => (by cases h)⟩

theorem mono {r : Except Fault α} (h : ReadsFrom left cs r) (hcs : cs <:+ cs') :
    ReadsFrom left cs' r :=
  ⟨fun a ha => (h.suffix a ha).trans hcs, fun hr => (h.long hr).mono hcs.isInfix⟩

theorem cons {r : Except Fault α} (h : ReadsFrom left cs r) (c : Char) :
    ReadsFrom left (c :: cs) r :=
  h.mono (List.suffix_cons c cs)

theorem bind {x : Except Fault α} {f : α → Except Fault β} (h : ReadsFrom left cs x)
    (hf : ∀ a, ReadsFrom left' (left a) (f a)) : ReadsFrom left' cs (x >>= f) := by
  refine ⟨?_, ?_⟩
  · intro b hb
    obtain ⟨a, ha, hb⟩ := bind_eq_ok_iff.1 hb
    exact ((hf a).suffix b hb).trans (h.suffix a ha)
  · intro hb
    rcases bind_eq_error_iff.1 hb with hx | ⟨a, ha, hb⟩
    · exact h.long hx
    · exact ((hf a).long hb).mono (h.suffix a ha).isInfix

theorem map {x : Except Fault α} {f : α → β} (h : ReadsFrom left cs x)
    (hf : ∀ a, left' (f a) <:+ left a) : ReadsFrom left' cs (x.map f) := by
  refine ⟨?_, fun hb => h.long (map_eq_error_iff.1 hb)⟩
  intro b hb
  obtain ⟨a, ha, rfl⟩ := map_eq_ok_iff.1 hb
  exact (hf a).trans (h.suffix a ha)

/-- What reads nothing can come first. -/
theorem bind_of_ne {x : Except Fault α} {f : α → Except Fault β} (h : x ≠ .error .tooManyDigits)
    (hf : ∀ a, ReadsFrom left' cs (f a)) : ReadsFrom left' cs (x >>= f) := by
  have hx : ReadsFrom (fun _ => cs) cs x := ⟨fun _ _ => List.suffix_rfl, fun hx => absurd hx h⟩
  exact hx.bind hf

end ReadsFrom

end Readers

section Scalars

variable (cs : List Char)

theorem leavesEnd_twoDigits? (low high : Nat) :
    LeavesEnd Prod.snd cs (twoDigits? low high cs) := by
  unfold twoDigits?
  split
  · next a b rest =>
    dsimp only
    split
    · split
      · exact .some ((List.suffix_cons b rest).trans (List.suffix_cons a _))
      · exact .none
    · exact .none
  · exact .none

theorem leavesEnd_skip? (c : Char) : LeavesEnd id cs (skip? c cs) := by
  unfold skip?
  split
  · split
    · exact .some (List.suffix_cons _ _)
    · exact .none
  · exact .none

theorem suffix_fraction : (fraction cs).2 <:+ cs := by
  unfold fraction
  split
  · dsimp only
    split
    · exact List.suffix_rfl
    · exact (List.dropWhile_suffix _).trans (List.suffix_cons _ _)
  · exact List.suffix_rfl

theorem leavesEnd_clock? : LeavesEnd Prod.snd cs (clock? cs) := by
  refine (leavesEnd_twoDigits? cs 0 23).bind fun ⟨h, rest⟩ => ?_
  refine (leavesEnd_skip? rest ':').bind fun rest => ?_
  refine (leavesEnd_twoDigits? rest 0 59).bind fun ⟨m, rest⟩ => ?_
  refine (leavesEnd_skip? rest ':').bind fun rest => ?_
  refine (leavesEnd_twoDigits? rest 0 59).bind fun ⟨s, rest⟩ => ?_
  exact .some (suffix_fraction rest)

theorem leavesEnd_offset? : LeavesEnd Prod.snd cs (offset? cs) := by
  unfold offset?
  split
  · exact .some (List.suffix_cons _ _)
  · exact .some (List.suffix_cons _ _)
  · next c rest _ _ =>
    split
    · refine .mono ?_ (List.suffix_cons c rest)
      refine (leavesEnd_twoDigits? rest 0 23).bind fun ⟨h, rest⟩ => ?_
      refine (leavesEnd_skip? rest ':').bind fun rest => ?_
      refine (leavesEnd_twoDigits? rest 0 59).bind fun ⟨m, rest⟩ => ?_
      exact .some List.suffix_rfl
    · exact .none
  · exact .none

theorem leavesEnd_dateDigits? : LeavesEnd Prod.snd cs (dateDigits? cs) := by
  refine (leavesEnd_twoDigits? cs 0 99).bind fun ⟨century, rest⟩ => ?_
  refine (leavesEnd_twoDigits? rest 0 99).bind fun ⟨year, rest⟩ => ?_
  refine (leavesEnd_skip? rest '-').bind fun rest => ?_
  refine (leavesEnd_twoDigits? rest 1 12).bind fun ⟨month, rest⟩ => ?_
  refine (leavesEnd_skip? rest '-').bind fun rest => ?_
  refine (leavesEnd_twoDigits? rest 1 31).bind fun ⟨day, rest⟩ => ?_
  exact .some List.suffix_rfl

theorem leavesEnd_clockBehindDate? : LeavesEnd (·.2.2) cs (clockBehindDate? cs) := by
  unfold clockBehindDate?
  split
  · next c rest =>
    split
    · refine .mono ?_ (List.suffix_cons c rest)
      refine (leavesEnd_clock? rest).bind fun ⟨micros, rest⟩ => ?_
      dsimp only
      split
      · next offset after h => exact .some (leavesEnd_offset? rest _ h)
      · exact .some List.suffix_rfl
    · exact .none
  · exact .none

/-- A run of digits stands at the front, with nothing but underscores between them. -/
theorem digitRun_append (isDigit : Char → Bool) :
    ∃ run, run ++ (digitRun isDigit cs).2 = cs ∧ (∀ c ∈ run, isDigit c ∨ c = '_') ∧
      (digitRun isDigit cs).1.length ≤ run.countP isDigit := by
  fun_induction digitRun isDigit cs with
  | case1 => exact ⟨[], rfl, by simp, by simp⟩
  | case2 c rest hc digits after h ih =>
    obtain ⟨run, hrun, hdigits, hlength⟩ := ih
    rw [h] at hrun hlength
    refine ⟨c :: run, by simp [hrun], by simpa [hc] using hdigits, ?_⟩
    simpa [hc] using hlength
  | case3 c hc d more hd digits after h ih =>
    obtain ⟨run, hrun, hdigits, hlength⟩ := ih
    rw [h] at hrun hlength
    simp only [Bool.and_eq_true, decide_eq_true_eq] at hd
    obtain ⟨rfl, hd⟩ := hd
    refine ⟨'_' :: d :: run, by simp [hrun], by simpa [hd] using hdigits, ?_⟩
    simpa [hc, hd] using hlength
  | case4 c hc d more hd => exact ⟨[], rfl, by simp, by simp⟩
  | case5 c hc => exact ⟨[], rfl, by simp, by simp⟩

theorem leavesEnd_digits? (isDigit : Char → Bool) :
    LeavesEnd Prod.snd cs (digits? isDigit cs) := by
  unfold digits?
  split
  · obtain ⟨run, hrun, -⟩ := digitRun_append cs isDigit
    exact .some ⟨run, hrun⟩
  · exact .none

theorem suffix_signed : (Binary64.signed cs).2 <:+ cs := by
  unfold Binary64.signed
  split
  · exact List.suffix_cons _ _
  · exact List.suffix_cons _ _
  · exact List.suffix_rfl

theorem leavesEnd_radixDigits (radix : Nat) : LeavesEnd Prod.snd cs (do
    let (digits, rest) ← digits? (fun c => (hexValue? c).any (· < radix)) cs
    return (Value.int (radixValue radix digits), rest)) :=
  (leavesEnd_digits? cs _).bind fun _ => .some List.suffix_rfl

theorem leavesEnd_radix? : LeavesEnd Prod.snd cs (radix? cs) := by
  unfold radix?
  split
  · next letter rest =>
    refine .mono ?_ ((List.suffix_cons letter rest).trans (List.suffix_cons '0' _))
    split
    · exact leavesEnd_radixDigits rest 16
    · exact leavesEnd_radixDigits rest 8
    · exact leavesEnd_radixDigits rest 2
    · exact .none
  · exact .none

theorem suffix_fractionDigits : (fractionDigits cs).2 <:+ cs := by
  unfold fractionDigits
  split
  · next rest =>
    cases h : digits? Char.isDigit rest with
    | none => exact List.suffix_rfl
    | some r => exact (leavesEnd_digits? rest _ r h).trans (List.suffix_cons _ _)
  · exact List.suffix_rfl

theorem leavesEnd_exponent? : LeavesEnd Prod.snd cs (exponent? cs) := by
  unfold exponent?
  split
  · next e rest =>
    split
    · refine .mono ?_ ((suffix_signed rest).trans (List.suffix_cons e rest))
      refine (leavesEnd_digits? _ _).bind fun ⟨digits, rest⟩ => ?_
      exact .some List.suffix_rfl
    · exact .none
  · exact .none

theorem leavesEnd_leadingDigits? : LeavesEnd Prod.snd cs (leadingDigits? cs) := by
  unfold leadingDigits?
  split
  · exact .some (List.suffix_cons _ _)
  · exact leavesEnd_digits? _ _

theorem hasLong_of_leadingDigits? {whole rest : List Char}
    (h : leadingDigits? cs = some (whole, rest)) (hmany : Text.digitLimit < whole.length) :
    HasLong cs := by
  unfold leadingDigits? at h
  split at h
  · cases h
    exact absurd hmany (by decide)
  · unfold digits? at h
    split at h
    · obtain ⟨run, hrun, hdigits, hlength⟩ := digitRun_append cs Char.isDigit
      rw [Option.some.inj h] at hrun hlength
      exact ⟨run, ⟨[], rest, by simpa using hrun⟩, hdigits, Nat.lt_of_lt_of_le hmany hlength⟩
    · cases h

end Scalars

/-- A form that a text can have: where the text has it, it is read. -/
def IsForm {α : Type} (cs : List Char) (form : Option (Except Fault (α × List Char))) : Prop :=
  ∀ r, form = some r → ReadsFrom Prod.snd cs r

section Forms

variable {α : Type} {cs : List Char}

theorem IsForm.or {a b : Option (Except Fault (α × List Char))} (ha : IsForm cs a)
    (hb : IsForm cs b) : IsForm cs (a.or b) := by
  cases a with
  | none => exact hb
  | some r => exact ha

theorem LeavesEnd.isForm {r : Option (α × List Char)} (h : LeavesEnd Prod.snd cs r) :
    IsForm cs (r.map .ok) := by
  intro x hx
  obtain ⟨a, ha, rfl⟩ := Option.map_eq_some_iff.1 hx
  exact .ok (h a ha)

theorem IsForm.some {r : Except Fault (α × List Char)} (h : ReadsFrom Prod.snd cs r) :
    IsForm cs (some r) := by
  intro x hx
  cases hx
  exact h

/-- A form behind what another reader takes. -/
theorem IsForm.bind {β : Type} {left : β → List Char} {x : Option β}
    {f : β → Option (Except Fault (α × List Char))} (h : LeavesEnd left cs x)
    (hf : ∀ b, IsForm (left b) (f b)) : IsForm cs (x >>= f) := by
  intro r hr
  obtain ⟨b, hb, hr⟩ := Option.bind_eq_some_iff.1 hr
  exact (hf b r hr).mono (h b hb)

end Forms

section Values

variable (cs : List Char)

theorem readsFrom_moment (clock : Option LocalTime) (offset : Option Int) :
    ReadsFrom Prod.snd cs ((moment clock offset).map fun v => (v, cs)) := by
  cases clock with
  | none => exact .invalid
  | some clock => exact .ok List.suffix_rfl

theorem isForm_dateTime? : IsForm cs (dateTime? cs) := by
  refine .bind (leavesEnd_dateDigits? cs) fun ⟨date, rest⟩ => ?_
  cases date with
  | none => exact .some .invalid
  | some date =>
    dsimp only
    split
    · exact .some (.ok List.suffix_rfl)
    · next micros offset after hclock =>
      exact .some ((readsFrom_moment after _ offset).mono
        (leavesEnd_clockBehindDate? rest _ hclock))

theorem isForm_timeOfDay? : IsForm cs (timeOfDay? cs) := by
  refine .bind (leavesEnd_clock? cs) fun ⟨micros, rest⟩ => ?_
  dsimp only
  split
  · exact .some (.ok List.suffix_rfl)
  · exact .some .invalid

theorem isForm_decimal? : IsForm cs (decimal? cs) := by
  intro r hr
  refine .mono ?_ (suffix_signed cs)
  obtain ⟨⟨whole, rest⟩, hwhole, hr⟩ := Option.bind_eq_some_iff.1 hr
  have hrest : (fractionDigits rest).2 <:+ (Binary64.signed cs).2 :=
    (suffix_fractionDigits rest).trans (leavesEnd_leadingDigits? _ _ hwhole)
  dsimp only at hr
  split at hr
  · split at hr
    · cases hr
      exact .ok hrest
    · next hmany =>
      cases hr
      exact ⟨fun _ h => (by cases h),
        fun _ => hasLong_of_leadingDigits? _ hwhole (Nat.lt_of_not_le hmany)⟩
  · cases hr
    refine .ok (List.IsSuffix.trans ?_ hrest)
    cases hpower : exponent? (fractionDigits rest).2 with
    | none => exact List.suffix_rfl
    | some power => exact leavesEnd_exponent? _ _ hpower

theorem leavesEnd_special? : LeavesEnd Prod.snd cs (special? cs) := by
  refine .mono ?_ (suffix_signed cs)
  unfold special?
  dsimp only
  split
  · next h =>
    rw [h]
    exact .some ⟨['i', 'n', 'f'], rfl⟩
  · next h =>
    rw [h]
    exact .some ⟨['n', 'a', 'n'], rfl⟩
  · exact .none

theorem readsFrom_scalar : ReadsFrom Prod.snd cs (scalar cs) := by
  unfold scalar
  split
  · exact .ok ⟨['t', 'r', 'u', 'e'], rfl⟩
  · exact .ok ⟨['f', 'a', 'l', 's', 'e'], rfl⟩
  · have hforms := (isForm_dateTime? cs).or <| (isForm_timeOfDay? cs).or <|
      (leavesEnd_radix? cs).isForm.or <| (isForm_decimal? cs).or (leavesEnd_special? cs).isForm
    dsimp only
    generalize hform : Option.or _ _ = form at hforms ⊢
    cases form with
    | none => exact .invalid
    | some r => exact hforms r rfl

end Values

section Lexemes

variable (cs : List Char)

theorem suffix_skipBlanks : skipBlanks cs <:+ cs := List.dropWhile_suffix _

theorem suffix_skipLineEnd : skipLineEnd cs <:+ cs := by
  unfold skipLineEnd
  split
  · exact List.suffix_cons _ _
  · exact List.suffix_rfl

theorem readsFrom_skipComment : ReadsFrom id cs (skipComment cs) := by
  unfold skipComment
  split
  · split
    · exact .invalid
    · exact .ok ((List.dropWhile_suffix _).trans (List.suffix_cons _ _))
  · exact .ok List.suffix_rfl

theorem readsFrom_skipLines (inside : Bool) : ReadsFrom id cs (skipLines inside cs) := by
  induction cs generalizing inside with
  | nil => exact .ok List.suffix_rfl
  | cons c rest ih =>
    rw [skipLines]
    split
    · exact (ih false).cons _
    · split
      · split
        · exact .invalid
        · exact (ih true).cons _
      · split
        · exact (ih false).cons _
        · split
          · exact (ih true).cons _
          · exact .ok List.suffix_rfl

theorem readsFrom_expect (c : Char) : ReadsFrom id cs (expect c cs) := by
  unfold expect
  split
  · split
    · exact .ok (List.suffix_cons _ _)
    · exact .invalid
  · exact .invalid

theorem ReadsFrom.push {r : Except Fault (List Char × List Char)} {cs : List Char}
    (h : ReadsFrom Prod.snd cs r) (c : Char) : ReadsFrom Prod.snd cs (push c r) :=
  h.map fun _ => List.suffix_rfl

theorem readsFrom_basicString (multiline : Bool) (state : StringState) :
    ReadsFrom Prod.snd cs (basicString multiline state cs) := by
  fun_induction basicString multiline state cs
  case case1 | case7 | case8 | case11 | case14 | case20 => exact .invalid
  -- A character that only moves the reader to its next state.
  case case2 ih | case3 ih | case4 ih | case5 ih | case9 ih | case12 ih | case13 ih | case15 ih |
      case19 ih =>
    exact ih.cons _
  -- A character that goes into the text.
  case case6 ih | case10 ih | case18 ih | case21 ih => exact (ih.cons _).push _
  -- The closing quotes.
  case case16 => exact .ok (List.suffix_cons _ _)
  case case17 => exact .ok ⟨['\x22', '\x22', '\x22'], rfl⟩

theorem readsFrom_literalString : ReadsFrom Prod.snd cs (literalString cs) := by
  unfold literalString
  dsimp only
  split
  · exact .invalid
  · next c rest h =>
    split
    · exact .invalid
    · have hrest : c :: rest <:+ cs := h ▸ List.dropWhile_suffix _
      exact .ok ((List.suffix_cons c rest).trans hrest)

theorem readsFrom_literalLines : ReadsFrom Prod.snd cs (literalLines cs) := by
  fun_induction literalLines cs with
  | case1 => exact .invalid
  | case2 rest => exact .ok ⟨['\x27', '\x27', '\x27'], rfl⟩
  | case3 => exact .invalid
  | case4 c rest _ _ ih => exact (ih.cons c).push c

theorem isForm_string? : IsForm cs (string? cs) := by
  have hquotes (quote : Char) (r : List Char × List Char) : (trailingQuotes quote r).2 <:+ r.2 :=
    List.drop_suffix _ _
  unfold string?
  split
  · next rest =>
    refine .some (.mono ?_ (⟨['\x22', '\x22', '\x22'], rfl⟩ : rest <:+ _))
    exact ((readsFrom_basicString _ true .plain).map (hquotes _)).mono (suffix_skipLineEnd rest)
  · exact .some ((readsFrom_basicString _ false .plain).cons _)
  · next rest =>
    refine .some (.mono ?_ (⟨['\x27', '\x27', '\x27'], rfl⟩ : rest <:+ _))
    exact ((readsFrom_literalLines _).map (hquotes _)).mono (suffix_skipLineEnd rest)
  · exact .some ((readsFrom_literalString _).cons _)
  · exact fun _ h => by cases h

theorem readsFrom_keyPart : ReadsFrom Prod.snd cs (keyPart cs) := by
  unfold keyPart
  split
  · exact .invalid
  · next c rest =>
    split
    · exact .ok ((List.dropWhile_suffix _).trans (List.suffix_cons _ _))
    · refine .cons (.map ?_ fun _ => List.suffix_rfl) c
      split
      · exact readsFrom_literalString rest
      · split
        · exact readsFrom_basicString rest false .plain
        · exact .invalid

theorem readsFrom_keyParts (count : Nat) : ReadsFrom Prod.snd cs (keyParts count cs) := by
  induction count generalizing cs with
  | zero => exact .invalid
  | succ count ih =>
    refine (readsFrom_keyPart cs).bind fun ⟨part, rest⟩ => ?_
    refine .mono ?_ (suffix_skipBlanks rest)
    dsimp only
    split
    · next rest h =>
      rw [h]
      refine .mono ?_ ((suffix_skipBlanks rest).trans (List.suffix_cons _ _))
      exact (ih _).bind fun _ => .ok List.suffix_rfl
    · exact .ok List.suffix_rfl

theorem readsFrom_key : ReadsFrom Prod.snd cs (key cs) := readsFrom_keyParts cs _

end Lexemes

section Documents

theorem alter_ne_tooManyDigits (lists : Bool) {change : Entries → Except Fault Entries}
    (h : ∀ t, change t ≠ .error .tooManyDigits) (path : List String) (table : Entries) :
    alter lists change path table ≠ .error .tooManyDigits := by
  fun_induction alter lists change path table
  case case1 => exact h _
  case case2 ih | case3 ih => exact fun herror => ih (map_eq_error_iff.1 herror)
  case case4 hlists ih =>
    subst hlists
    exact fun herror => ih (map_eq_error_iff.1 herror)
  case case5 | case6 => nofun

theorem addAt_ne_tooManyDigits (lists : Bool) (path : List String) (v : Value) (table : Entries) :
    addAt lists path v table ≠ .error .tooManyDigits := by
  refine alter_ne_tooManyDigits lists (fun t => ?_) _ _
  unfold addNew
  split <;> nofun

mutual

theorem readsFrom_value (depth : Nat) (cs : List Char) :
    ReadsFrom Prod.snd cs (value depth cs) := by
  match depth with
  | 0 => exact .invalid
  | depth + 1 =>
    unfold value
    split
    · next h => exact (isForm_string? _ _ h).map fun _ => List.suffix_rfl
    · next rest _ =>
      refine .cons (.bind (readsFrom_skipLines rest false) fun rest => ?_) _
      dsimp only [id]
      split
      · exact .ok (List.suffix_cons _ _)
      · exact readsFrom_items depth _ _
    · next rest _ =>
      refine .cons (.mono ?_ (suffix_skipBlanks rest)) _
      split
      · next rest h =>
        rw [h]
        exact .ok (List.suffix_cons _ _)
      · exact readsFrom_inlineEntries depth _ _ _
    · exact readsFrom_scalar _

theorem readsFrom_items (depth : Nat) (before : List Value) (cs : List Char) :
    ReadsFrom Prod.snd cs (items depth before cs) := by
  match depth with
  | 0 => exact .invalid
  | depth + 1 =>
    rw [items]
    refine (readsFrom_value depth cs).bind fun ⟨v, rest⟩ => ?_
    refine (readsFrom_skipLines rest false).bind fun rest => ?_
    dsimp only [id]
    split
    · exact .ok (List.suffix_cons _ _)
    · next rest =>
      refine .cons (.bind (readsFrom_skipLines rest false) fun rest => ?_) _
      dsimp only [id]
      split
      · exact .ok (List.suffix_cons _ _)
      · exact readsFrom_items depth _ _
    · exact .invalid

theorem readsFrom_inlineEntries (depth : Nat) (table : Entries) (frozen : List (List String))
    (cs : List Char) : ReadsFrom Prod.snd cs (inlineEntries depth table frozen cs) := by
  match depth with
  | 0 => exact .invalid
  | depth + 1 =>
    rw [inlineEntries]
    refine (readsFrom_key cs).bind fun ⟨path, rest⟩ => ?_
    refine (readsFrom_expect rest '=').bind fun rest => ?_
    refine .mono ?_ (suffix_skipBlanks rest)
    refine (readsFrom_value depth _).bind fun ⟨v, rest⟩ => ?_
    dsimp only
    split
    · exact .invalid
    · refine .bind_of_ne (addAt_ne_tooManyDigits false path v table) fun table => ?_
      refine .mono ?_ (suffix_skipBlanks rest)
      split
      · next rest h =>
        rw [h]
        exact .ok (List.suffix_cons _ _)
      · next rest h =>
        rw [h]
        exact ((readsFrom_inlineEntries depth _ _ _).mono (suffix_skipBlanks rest)).cons _
      · exact .invalid

end

variable (d : Draft)

theorem declareTable_ne_tooManyDigits (path : List String) :
    d.declareTable path ≠ .error .tooManyDigits := by
  unfold Draft.declareTable
  dsimp only
  split
  · nofun
  · exact fun h => alter_ne_tooManyDigits true (fun _ => by nofun) _ _ (map_eq_error_iff.1 h)

theorem declareListItem_ne_tooManyDigits (path : List String) :
    d.declareListItem path ≠ .error .tooManyDigits := by
  have happend (t : Entries) : appendTable (path.getLastD "") t ≠ .error .tooManyDigits := by
    unfold appendTable
    split <;> nofun
  unfold Draft.declareListItem
  dsimp only
  split
  · nofun
  · exact fun h => alter_ne_tooManyDigits true happend _ _ (map_eq_error_iff.1 h)

theorem addEntry_ne_tooManyDigits (path : List String) (v : Value) :
    d.addEntry path v ≠ .error .tooManyDigits := by
  unfold Draft.addEntry
  dsimp only
  split
  · nofun
  · split
    · nofun
    · exact fun h => addAt_ne_tooManyDigits true _ _ _ (map_eq_error_iff.1 h)

theorem readsFrom_entry (cs : List Char) : ReadsFrom Prod.snd cs (entry d cs) := by
  refine (readsFrom_key cs).bind fun ⟨path, rest⟩ => ?_
  refine (readsFrom_expect rest '=').bind fun rest => ?_
  refine .mono ?_ (suffix_skipBlanks rest)
  refine (readsFrom_value _ _).bind fun ⟨v, rest⟩ => ?_
  exact .bind_of_ne (addEntry_ne_tooManyDigits d path v) fun d => .ok List.suffix_rfl

theorem readsFrom_declaration (cs : List Char) : ReadsFrom Prod.snd cs (declaration d cs) := by
  unfold declaration
  split
  · next rest =>
    refine .cons (.mono ?_ (suffix_skipBlanks rest)) _
    refine (readsFrom_key _).bind fun ⟨path, rest⟩ => ?_
    refine .bind_of_ne (declareListItem_ne_tooManyDigits d path) fun d => ?_
    refine (readsFrom_expect rest ']').bind fun rest => ?_
    exact (readsFrom_expect rest ']').bind fun rest => .ok List.suffix_rfl
  · refine .mono ?_ (suffix_skipBlanks cs)
    refine (readsFrom_key _).bind fun ⟨path, rest⟩ => ?_
    refine .bind_of_ne (declareTable_ne_tooManyDigits d path) fun d => ?_
    exact (readsFrom_expect rest ']').bind fun rest => .ok List.suffix_rfl

theorem readsFrom_statement (cs : List Char) : ReadsFrom Prod.snd cs (statement d cs) := by
  unfold statement
  split
  · exact .ok List.suffix_rfl
  · next c rest =>
    split
    · exact readsFrom_entry d _
    · split
      · exact (readsFrom_declaration d rest).cons c
      · split
        · exact .ok List.suffix_rfl
        · exact .invalid

/-- Of a document nothing is left. -/
theorem readsFrom_lines (count : Nat) (cs : List Char) :
    ReadsFrom (fun _ => []) cs (lines count d cs) := by
  induction count generalizing d cs with
  | zero => exact .invalid
  | succ count ih =>
    refine .mono ?_ (suffix_skipBlanks cs)
    refine (readsFrom_statement d _).bind fun ⟨d, rest⟩ => ?_
    refine .mono ?_ (suffix_skipBlanks rest)
    refine (readsFrom_skipComment _).bind fun rest => ?_
    dsimp only [id]
    split
    · exact .ok List.suffix_rfl
    · exact (ih d _).cons _
    · exact .invalid

end Documents

section LineEnds

variable {cs run : List Char}

theorem prefix_of_prefix_joinLineEnds (hrun : '\n' ∉ run) (h : run <+: joinLineEnds cs) :
    run <+: cs := by
  fun_induction joinLineEnds cs generalizing run with
  | case1 => exact h
  | case2 rest ih =>
    rcases List.prefix_cons_iff.1 h with rfl | ⟨run, rfl, -⟩
    · exact List.nil_prefix
    · exact absurd List.mem_cons_self hrun
  | case3 c rest hc ih =>
    rcases List.prefix_cons_iff.1 h with rfl | ⟨run, rfl, hrest⟩
    · exact List.nil_prefix
    · exact List.cons_prefix_cons.2 ⟨rfl, ih (List.not_mem_of_not_mem_cons hrun) hrest⟩

/-- Joining line ends makes no new runs without one. -/
theorem infix_of_infix_joinLineEnds (hrun : '\n' ∉ run) (h : run <:+: joinLineEnds cs) :
    run <:+: cs := by
  fun_induction joinLineEnds cs with
  | case1 => exact h
  | case2 rest ih =>
    rcases List.infix_cons_iff.1 h with h | h
    · have hprefix : run <+: '\r' :: '\n' :: rest := prefix_of_prefix_joinLineEnds hrun h
      exact hprefix.isInfix
    · exact (ih h).trans (List.IsSuffix.isInfix ⟨['\r', '\n'], rfl⟩)
  | case3 c rest hc ih =>
    rcases List.infix_cons_iff.1 h with h | h
    · have hjoin : joinLineEnds (c :: rest) = c :: joinLineEnds rest := joinLineEnds.eq_3 c rest hc
      exact (prefix_of_prefix_joinLineEnds hrun (hjoin ▸ h)).isInfix
    · exact (ih h).trans (List.suffix_cons c rest).isInfix

end LineEnds

/-- A document is only refused for a number of too many digits if it holds one. -/
theorem hasLong_of_read {cs : List Char} (h : read cs = .error .tooManyDigits) : HasLong cs := by
  obtain ⟨run, hrun, hlong⟩ := (readsFrom_lines .empty _ _).long (map_eq_error_iff.1 h)
  refine ⟨run, infix_of_infix_joinLineEnds ?_ hrun, hlong⟩
  intro hmem
  exact absurd (hlong.digits _ hmem) (by decide)

end ViewDoc.Toml
