import Mathlib.Data.List.TakeWhile
import Mathlib.Tactic.Common

set_option autoImplicit false

/-!
# Media types

A reader for media types with parameters, "type/subtype; name=value; name=\"quoted value\"", that
works the way `mime.ParseMediaType` does, and the grammar of what it reads.

The text is cut at the first semicolon. What is in front is the media type, in lower case and without
white space around it; what follows is read parameter by parameter. A name may be given twice if the
values agree, and a semicolon may stand alone at the end.

* `consumeQuoted_iff`, `consumeValue_sound`, `consumeValue_complete`: a value and its text;
* **`scan_ok_iff`**: the reader gets through exactly the texts that the grammar derives (`Params`)
  with agreeing values (`Agree`);
* `parse_ok_iff`: the same for a whole text.
-/

namespace Loon.MediaType

/-- White space and case. No visible ASCII character is white space. -/
structure Charset where
  space : Char → Bool
  lower : Char → Char
  space_outside : ∀ c, space c = true → c.toNat ≤ 0x20 ∨ 0x7f ≤ c.toNat

/-- A name and a value. -/
abbrev Param := List Char × List Char

inductive Error where
  | noMediaType
  | expectedSlash
  | expectedToken
  | unexpectedContent
  | invalidMediaParameter
  | duplicateParameterName
  deriving DecidableEq, Repr

def Error.message : Error → String
  | .noMediaType => "mime: no media type"
  | .expectedSlash => "mime: expected slash after first token"
  | .expectedToken => "mime: expected token after slash"
  | .unexpectedContent => "mime: unexpected content after media subtype"
  | .invalidMediaParameter => "mime: invalid media parameter"
  | .duplicateParameterName => "mime: duplicate parameter name"

def isTSpecial (c : Char) : Bool := c ∈ "()<>@,;:\\\"/[]?=".toList

def isTokenChar (c : Char) : Bool := 0x20 < c.toNat && c.toNat < 0x7f && !isTSpecial c

/-- A token and the rest of the text. -/
def consumeToken (v : List Char) : List Char × List Char :=
  (v.takeWhile isTokenChar, v.dropWhile isTokenChar)

/-- The value of a quoted string and the rest of the text, from behind the opening quote. A backslash
counts as an escape only in front of a special character. -/
def consumeQuoted : List Char → Option (List Char × List Char)
  | [] => none
  | [c] => if c = '"' then some ([], []) else none
  | c :: d :: t =>
    if c = '"' then some ([], d :: t)
    else if c = '\\' ∧ isTSpecial d = true then
      (consumeQuoted t).map fun (value, rest) => (d :: value, rest)
    else if c = '\r' ∨ c = '\n' then none
    else (consumeQuoted (d :: t)).map fun (value, rest) => (c :: value, rest)

def consumeValue : List Char → Option (List Char × List Char)
  | [] => none
  | c :: t =>
    if c = '"' then consumeQuoted t
    else if (consumeToken (c :: t)).1 = [] then none
    else some (consumeToken (c :: t))

section Reader

variable (cs : Charset)

def skipSpace (v : List Char) : List Char := v.dropWhile cs.space

def trimSpace (v : List Char) : List Char := (skipSpace cs (skipSpace cs v).reverse).reverse

/-- A parameter and the rest of the text. -/
def consumeMediaParam (v : List Char) : Option (Param × List Char) :=
  match skipSpace cs v with
  | ';' :: rest =>
    let (param, rest) := consumeToken (skipSpace cs rest)
    if param = [] then none
    else
      match skipSpace cs rest with
      | '=' :: rest =>
        (consumeValue (skipSpace cs rest)).map fun (value, rest) =>
          ((param.map cs.lower, value), rest)
      | _ => none
  | _ => none

/-- The loop over the parameters, with the ones read so far. Every round makes the text shorter. -/
def scan : ℕ → List Char → List Param → Except Error (List Param)
  | 0, _, _ => .error .invalidMediaParameter
  | n + 1, v, seen =>
    let v := skipSpace cs v
    if v = [] then .ok seen
    else
      match consumeMediaParam cs v with
      | none => if trimSpace cs v = [';'] then .ok seen else .error .invalidMediaParameter
      | some (p, rest) =>
        if ∃ q ∈ seen, q.1 = p.1 ∧ q.2 ≠ p.2 then .error .duplicateParameterName
        else scan n rest (seen ++ [p])

def checkMediaTypeDisposition (s : List Char) : Except Error Unit :=
  let (typ, rest) := consumeToken s
  if typ = [] then .error .noMediaType
  else
    match rest with
    | [] => .ok ()
    | '/' :: rest =>
      let (subtype, rest) := consumeToken rest
      if subtype = [] then .error .expectedToken
      else if rest ≠ [] then .error .unexpectedContent
      else .ok ()
    | _ => .error .expectedSlash

/-- The text in front of the first semicolon. -/
def base (v : List Char) : List Char := v.takeWhile (· ≠ ';')

/-- The text from the first semicolon on. -/
def tail (v : List Char) : List Char := v.dropWhile (· ≠ ';')

def mediaType (v : List Char) : List Char := trimSpace cs ((base v).map cs.lower)

def parse (v : List Char) : Except Error (List Char × List Param) := do
  checkMediaTypeDisposition (mediaType cs v)
  let params ← scan cs ((tail v).length + 1) (tail v) []
  .ok (mediaType cs v, params)

end Reader

/-! ## The grammar -/

def IsToken (s : List Char) : Prop := s ≠ [] ∧ ∀ c ∈ s, isTokenChar c = true

/-- The text of a quoted string behind the opening quote, the closing quote included, and its
value. -/
inductive Quoted : List Char → List Char → Prop
  | close : Quoted ['"'] []
  | escape {d : Char} {t v : List Char} : isTSpecial d = true → Quoted t v →
      Quoted ('\\' :: d :: t) (d :: v)
  | char {c : Char} {t v : List Char} : c ≠ '"' → c ≠ '\r' → c ≠ '\n' →
      (c = '\\' → ∀ d, t.head? = some d → isTSpecial d = false) → Quoted t v →
      Quoted (c :: t) (c :: v)

/-- The text of a value and the value. -/
inductive Value : List Char → List Char → Prop
  | token {s : List Char} : IsToken s → Value s s
  | quoted {t v : List Char} : Quoted t v → Value ('"' :: t) v

/-- Only white space. -/
def Blank (cs : Charset) (s : List Char) : Prop := ∀ c ∈ s, cs.space c = true

/-- The text of parameters, each behind a semicolon, and the parameters. -/
inductive Params (cs : Charset) : List Char → List Param → Prop
  | nil {s : List Char} : Blank cs s → Params cs s []
  | semicolon {s s' : List Char} : Blank cs s → Blank cs s' → Params cs (s ++ ';' :: s') []
  | param {s₁ s₂ s₃ s₄ name text value rest : List Char} {ps : List Param} :
      Blank cs s₁ → Blank cs s₂ → Blank cs s₃ → Blank cs s₄ → IsToken name → Value text value →
      Params cs rest ps →
      Params cs (s₁ ++ ';' :: (s₂ ++ (name ++ (s₃ ++ '=' :: (s₄ ++ (text ++ rest))))))
        ((name.map cs.lower, value) :: ps)

/-- A name that is given twice has one value. -/
def Agree (ps : List Param) : Prop := ∀ p ∈ ps, ∀ q ∈ ps, p.1 = q.1 → p.2 = q.2

/-- Parameters as they may stand behind a media type. -/
def WellFormed (cs : Charset) (s : List Char) : Prop := ∃ ps : List Param, Params cs s ps ∧ Agree ps

variable {cs : Charset} {s t v rest : List Char}

/-! ## White space and tokens -/

/-- `c` is none of the first characters of `s`, if there is one. -/
def NotAtHead (p : Char → Bool) (s : List Char) : Prop := ∀ c, s.head? = some c → p c = false

theorem dropWhile_append {p : Char → Bool} (hs : ∀ c ∈ s, p c = true) (ht : NotAtHead p t) :
    (s ++ t).dropWhile p = t := by
  rw [List.dropWhile_append_of_pos hs]
  cases t with
  | nil => rfl
  | cons c t => exact List.dropWhile_cons_of_neg (by simp [ht c rfl])

theorem takeWhile_append {p : Char → Bool} (hs : ∀ c ∈ s, p c = true) (ht : NotAtHead p t) :
    (s ++ t).takeWhile p = s := by
  rw [List.takeWhile_append_of_pos hs]
  cases t with
  | nil => simp
  | cons c t => rw [List.takeWhile_cons_of_neg (by simp [ht c rfl]), List.append_nil]

theorem not_space_of_visible {c : Char} (h : 0x20 < c.toNat) (h' : c.toNat < 0x7f) :
    cs.space c = false := by
  by_contra hc
  rcases cs.space_outside c (by simpa using hc) with h1 | h1 <;> omega

theorem not_space_of_isTokenChar {c : Char} (h : isTokenChar c = true) : cs.space c = false := by
  simp only [isTokenChar, Bool.and_eq_true, decide_eq_true_eq] at h
  exact not_space_of_visible h.1.1 h.1.2

theorem not_isTokenChar_of_space {c : Char} (h : cs.space c = true) : isTokenChar c = false := by
  by_contra hc
  rw [not_space_of_isTokenChar (by simpa using hc)] at h
  cases h

theorem skipSpace_append (hs : Blank cs s) (ht : NotAtHead cs.space t) :
    skipSpace cs (s ++ t) = t :=
  dropWhile_append hs ht

theorem skipSpace_blank (hs : Blank cs s) : skipSpace cs s = [] := by
  have h := skipSpace_append hs (t := []) (by rintro c ⟨⟩)
  rwa [List.append_nil] at h

theorem exists_skipSpace (cs : Charset) (v : List Char) : ∃ s, Blank cs s ∧ v = s ++ skipSpace cs v :=
  ⟨v.takeWhile cs.space, fun _ hc => List.mem_takeWhile_imp hc,
    List.takeWhile_append_dropWhile.symm⟩

theorem consumeToken_append (hs : ∀ c ∈ s, isTokenChar c = true) (ht : NotAtHead isTokenChar t) :
    consumeToken (s ++ t) = (s, t) := by
  rw [consumeToken, takeWhile_append hs ht, dropWhile_append hs ht]

theorem consumeToken_spec {tok : List Char} (h : consumeToken v = (tok, rest)) :
    v = tok ++ rest ∧ ∀ c ∈ tok, isTokenChar c = true := by
  cases h
  exact ⟨List.takeWhile_append_dropWhile.symm, fun _ hc => List.mem_takeWhile_imp hc⟩

/-- A media type that passes the check is made of tokens and a slash. -/
theorem tokens_of_checkMediaTypeDisposition (h : checkMediaTypeDisposition s = .ok ()) :
    ∀ c ∈ s, c = '/' ∨ isTokenChar c = true := by
  intro c hc
  unfold checkMediaTypeDisposition at h
  cases ht : consumeToken s with
  | mk typ rest =>
    obtain ⟨rfl, htyp⟩ := consumeToken_spec ht
    rw [ht] at h
    dsimp only at h
    split_ifs at h with hne
    rcases List.mem_append.mp hc with hc | hc
    · exact .inr (htyp c hc)
    split at h
    · cases hc
    · rename_i tail _
      cases hr : consumeToken tail with
      | mk subtype rest =>
        obtain ⟨rfl, hsub⟩ := consumeToken_spec hr
        rw [hr] at h
        dsimp only at h
        split_ifs at h with hne' hend
        obtain rfl := not_not.mp hend
        rw [List.append_nil] at hc
        rcases List.mem_cons.mp hc with rfl | hc
        · exact .inl rfl
        · exact .inr (hsub c hc)
    · cases h

theorem notAtHead_append {p : Char → Bool} (hs : ∀ c ∈ s, p c = false) (ht : NotAtHead p t) :
    NotAtHead p (s ++ t) := by
  intro c hc
  cases s with
  | nil => exact ht c hc
  | cons a s =>
    cases hc
    exact hs _ List.mem_cons_self

theorem IsToken.notAtHead_space (h : IsToken s) : NotAtHead cs.space (s ++ t) := by
  obtain ⟨hne, hs⟩ := h
  obtain ⟨a, s, rfl⟩ := List.exists_cons_of_ne_nil hne
  rintro c ⟨⟩
  exact not_space_of_isTokenChar (hs a List.mem_cons_self)

/-! ## Values -/

theorem consumeQuoted_complete (h : Quoted t v) : consumeQuoted (t ++ rest) = some (v, rest) := by
  induction h with
  | close =>
    cases rest with
    | nil => rfl
    | cons d r => rw [List.cons_append, List.nil_append, consumeQuoted, if_pos rfl]
  | @escape d t v hd _ ih =>
    rw [List.cons_append, List.cons_append, consumeQuoted, if_neg (by decide), if_pos ⟨rfl, hd⟩, ih]
    rfl
  | @char c t v hq hr hn hesc ht ih =>
    -- the text goes on, at least with the closing quote
    obtain ⟨d, u, rfl⟩ : ∃ d u, t = d :: u := by cases ht <;> exact ⟨_, _, rfl⟩
    rw [List.cons_append, List.cons_append, consumeQuoted, if_neg hq, if_neg, if_neg (by tauto),
      ← List.cons_append, ih]
    · rfl
    · rintro ⟨hc, hd⟩
      rw [hesc hc d rfl] at hd
      cases hd

theorem consumeQuoted_sound (h : consumeQuoted s = some (v, rest)) :
    ∃ t, s = t ++ rest ∧ Quoted t v := by
  induction s using consumeQuoted.induct generalizing v with
  | case1 => cases h
  | case2 =>
    cases h
    exact ⟨['"'], rfl, .close⟩
  | case3 c hq =>
    rw [consumeQuoted, if_neg hq] at h
    cases h
  | case4 d t =>
    rw [consumeQuoted, if_pos rfl] at h
    cases h
    exact ⟨['"'], rfl, .close⟩
  | case5 c d t hq hesc ih =>
    rw [consumeQuoted, if_neg hq, if_pos hesc] at h
    obtain ⟨⟨w, r⟩, hw, he⟩ := Option.map_eq_some_iff.mp h
    cases he
    obtain ⟨u, rfl, hu⟩ := ih hw
    exact ⟨'\\' :: d :: u, by rw [hesc.1]; rfl, .escape hesc.2 hu⟩
  | case6 c d t hq hesc hcr =>
    rw [consumeQuoted, if_neg hq, if_neg hesc, if_pos hcr] at h
    cases h
  | case7 c d t hq hesc hcr ih =>
    rw [consumeQuoted, if_neg hq, if_neg hesc, if_neg hcr] at h
    obtain ⟨⟨w, r⟩, hw, he⟩ := Option.map_eq_some_iff.mp h
    cases he
    obtain ⟨u, hu, hQ⟩ := ih hw
    refine ⟨c :: u, by rw [hu]; rfl, .char hq (fun h => hcr (.inl h)) (fun h => hcr (.inr h)) ?_ hQ⟩
    intro hc e he
    obtain ⟨x, u', rfl⟩ : ∃ x u', u = x :: u' := by cases hQ <;> exact ⟨_, _, rfl⟩
    cases he
    cases hu
    by_contra hs
    exact hesc ⟨hc, by simpa using hs⟩

/-- A value ends where the text goes on with what is no part of a token. -/
theorem consumeValue_complete (h : Value s v) (hr : NotAtHead isTokenChar rest) :
    consumeValue (s ++ rest) = some (v, rest) := by
  cases h with
  | token hs =>
    obtain ⟨hne, htok⟩ := hs
    obtain ⟨c, s, rfl⟩ := List.exists_cons_of_ne_nil hne
    have hq : c ≠ '"' := by
      rintro rfl
      exact absurd (htok _ List.mem_cons_self) (by decide)
    have hcons := consumeToken_append htok hr
    rw [List.cons_append] at hcons
    rw [List.cons_append, consumeValue, if_neg hq, hcons, if_neg (List.cons_ne_nil c s)]
  | quoted hs =>
    rw [List.cons_append, consumeValue, if_pos rfl]
    exact consumeQuoted_complete hs

theorem consumeValue_sound (h : consumeValue s = some (v, rest)) :
    ∃ t, s = t ++ rest ∧ Value t v := by
  cases s with
  | nil => cases h
  | cons c s =>
    rw [consumeValue] at h
    split_ifs at h with hq htok
    · obtain ⟨t, rfl, ht⟩ := consumeQuoted_sound h
      exact ⟨'"' :: t, by rw [hq]; rfl, .quoted ht⟩
    · obtain ⟨he, hall⟩ := consumeToken_spec (Option.some.inj h)
      rw [Option.some.inj h] at htok
      exact ⟨v, he, .token ⟨htok, hall⟩⟩

theorem Value.notAtHead_space (h : Value s v) : NotAtHead cs.space (s ++ t) := by
  cases h with
  | token hs => exact hs.notAtHead_space
  | quoted _ =>
    rintro c ⟨⟩
    exact not_space_of_visible (by decide) (by decide)

/-! ## Parameters -/

theorem notAtHead_space_cons {c : Char} (h : 0x20 < c.toNat) (h' : c.toNat < 0x7f) :
    NotAtHead cs.space (c :: t) := by
  rintro d ⟨⟩
  exact not_space_of_visible h h'

/-- A text of parameters does not go on with a token. -/
theorem Params.notAtHead_token {ps : List Param} (h : Params cs s ps) :
    NotAtHead isTokenChar s := by
  have hsemi : ∀ t, NotAtHead isTokenChar (';' :: t) := by
    rintro t c ⟨⟩
    decide
  cases h with
  | nil hb =>
    intro c hc
    exact not_isTokenChar_of_space (hb c (List.mem_of_mem_head? hc))
  | semicolon hb _ => exact notAtHead_append (fun c hc => not_isTokenChar_of_space (hb c hc)) (hsemi _)
  | param hb _ _ _ _ _ _ =>
    exact notAtHead_append (fun c hc => not_isTokenChar_of_space (hb c hc)) (hsemi _)

theorem consumeMediaParam_complete {s₁ s₂ s₃ s₄ name text value : List Char} {ps : List Param}
    (h₁ : Blank cs s₁) (h₂ : Blank cs s₂) (h₃ : Blank cs s₃) (h₄ : Blank cs s₄)
    (hn : IsToken name) (hv : Value text value) (hr : Params cs rest ps) :
    consumeMediaParam cs
        (s₁ ++ ';' :: (s₂ ++ (name ++ (s₃ ++ '=' :: (s₄ ++ (text ++ rest)))))) =
      some ((name.map cs.lower, value), rest) := by
  have htok : consumeToken (name ++ (s₃ ++ '=' :: (s₄ ++ (text ++ rest)))) =
      (name, s₃ ++ '=' :: (s₄ ++ (text ++ rest))) := by
    refine consumeToken_append hn.2 (notAtHead_append (fun c hc => ?_) ?_)
    · exact not_isTokenChar_of_space (h₃ c hc)
    · rintro c ⟨⟩
      decide
  rw [consumeMediaParam,
    skipSpace_append h₁ (notAtHead_space_cons (by decide) (by decide))]
  simp only
  rw [skipSpace_append h₂ hn.notAtHead_space, htok]
  simp only [if_neg hn.1]
  rw [skipSpace_append h₃ (notAtHead_space_cons (by decide) (by decide))]
  simp only
  rw [skipSpace_append h₄ hv.notAtHead_space, consumeValue_complete hv hr.notAtHead_token]
  rfl

theorem consumeMediaParam_sound {p : Param} (h : consumeMediaParam cs v = some (p, rest)) :
    ∃ s₁ s₂ s₃ s₄ name text : List Char, Blank cs s₁ ∧ Blank cs s₂ ∧ Blank cs s₃ ∧ Blank cs s₄ ∧
      IsToken name ∧ Value text p.2 ∧ p.1 = name.map cs.lower ∧
      v = s₁ ++ ';' :: (s₂ ++ (name ++ (s₃ ++ '=' :: (s₄ ++ (text ++ rest))))) := by
  unfold consumeMediaParam at h
  obtain ⟨s₁, h₁, e₁⟩ := exists_skipSpace cs v
  split at h
  case h_2 => cases h
  case h_1 r₁ hr₁ =>
    obtain ⟨s₂, h₂, e₂⟩ := exists_skipSpace cs r₁
    cases ht : consumeToken (skipSpace cs r₁) with
    | mk name r₂ =>
      obtain ⟨e₃, hname⟩ := consumeToken_spec ht
      simp only [ht] at h
      split_ifs at h with hne
      split at h
      case h_2 => cases h
      case h_1 r₃ hr₃ =>
        obtain ⟨s₃, h₃, e₄⟩ := exists_skipSpace cs r₂
        obtain ⟨s₄, h₄, e₅⟩ := exists_skipSpace cs r₃
        obtain ⟨⟨value, r₄⟩, hv, he⟩ := Option.map_eq_some_iff.mp h
        cases he
        obtain ⟨text, e₆, htext⟩ := consumeValue_sound hv
        refine ⟨s₁, s₂, s₃, s₄, name, text, h₁, h₂, h₃, h₄, ⟨hne, hname⟩, htext, rfl, ?_⟩
        rw [← e₆, ← e₅, ← hr₃, ← e₄, ← e₃, ← e₂, ← hr₁, ← e₁]

/-! ## The loop -/

theorem Blank.append (hs : Blank cs s) (ht : Blank cs t) : Blank cs (s ++ t) := fun c hc =>
  (List.mem_append.mp hc).elim (hs c) (ht c)

/-- White space in front changes nothing. -/
theorem Params.blank_append {ps : List Param} (ht : Blank cs t) (h : Params cs s ps) :
    Params cs (t ++ s) ps := by
  cases h with
  | nil hb => exact .nil (ht.append hb)
  | semicolon hb hb' =>
    rw [← List.append_assoc]
    exact .semicolon (ht.append hb) hb'
  | param h₁ h₂ h₃ h₄ hn hv hr =>
    rw [← List.append_assoc]
    exact .param (ht.append h₁) h₂ h₃ h₄ hn hv hr

theorem skipSpace_semicolon (cs : Charset) (t : List Char) : skipSpace cs (';' :: t) = ';' :: t := by
  have hb : Blank cs [] := by rintro c ⟨⟩
  exact skipSpace_append hb (notAtHead_space_cons (by decide) (by decide))

theorem trimSpace_semicolon (ht : Blank cs t) : trimSpace cs (';' :: t) = [';'] := by
  have hb : Blank cs t.reverse := fun c hc => ht c (List.mem_reverse.mp hc)
  rw [trimSpace, skipSpace_semicolon, List.reverse_cons, skipSpace_append hb]
  · rfl
  · exact notAtHead_space_cons (by decide) (by decide)

theorem eq_semicolon_of_trimSpace (h : trimSpace cs v = [';']) :
    ∃ s t, Blank cs s ∧ Blank cs t ∧ v = s ++ ';' :: t := by
  obtain ⟨s, hs, hv⟩ := exists_skipSpace cs v
  obtain ⟨t, ht, hr⟩ := exists_skipSpace cs (skipSpace cs v).reverse
  rw [List.reverse_eq_iff.mp h, List.reverse_eq_iff, List.reverse_append] at hr
  refine ⟨s, t.reverse, hs, fun c hc => ht c (List.mem_reverse.mp hc), ?_⟩
  rw [hv, hr]
  rfl

theorem scan_complete {ps seen : List Param} (h : Params cs s ps) (ha : Agree (seen ++ ps)) {n : ℕ}
    (hn : s.length < n) : scan cs n s seen = .ok (seen ++ ps) := by
  induction h generalizing n seen with
  | nil hb =>
    obtain ⟨n, rfl⟩ := Nat.exists_eq_succ_of_ne_zero (Nat.ne_zero_of_lt hn)
    simp only [scan, skipSpace_blank hb, if_true, List.append_nil]
  | @semicolon s t hb hb' =>
    obtain ⟨n, rfl⟩ := Nat.exists_eq_succ_of_ne_zero (Nat.ne_zero_of_lt hn)
    have hskip : skipSpace cs (s ++ ';' :: t) = ';' :: t :=
      skipSpace_append hb (notAtHead_space_cons (by decide) (by decide))
    -- no parameter is read from a semicolon alone
    have hnone : consumeMediaParam cs (';' :: t) = none := by
      simp [consumeMediaParam, skipSpace_semicolon, skipSpace_blank hb', consumeToken]
    simp only [scan, hskip, hnone, trimSpace_semicolon hb', if_true, List.append_nil]
    rw [if_neg (List.cons_ne_nil _ _)]
  | @param s₁ s₂ s₃ s₄ name text value rest ps h₁ h₂ h₃ h₄ hname hvalue hrest ih =>
    obtain ⟨n, rfl⟩ := Nat.exists_eq_succ_of_ne_zero (Nat.ne_zero_of_lt hn)
    have hskip : skipSpace cs (s₁ ++ ';' :: (s₂ ++ (name ++ (s₃ ++ '=' :: (s₄ ++ (text ++ rest)))))) =
        ';' :: (s₂ ++ (name ++ (s₃ ++ '=' :: (s₄ ++ (text ++ rest))))) :=
      skipSpace_append h₁ (notAtHead_space_cons (by decide) (by decide))
    have hempty : Blank cs [] := by rintro c ⟨⟩
    have hparam := consumeMediaParam_complete hempty h₂ h₃ h₄ hname hvalue hrest
    rw [List.nil_append] at hparam
    have hagree : ¬ ∃ q ∈ seen, q.1 = name.map cs.lower ∧ q.2 ≠ value := by
      rintro ⟨q, hq, h1, h2⟩
      exact h2 (ha q (List.mem_append_left _ hq) (name.map cs.lower, value)
        (List.mem_append_right _ List.mem_cons_self) h1)
    have hlen : rest.length < n := by
      simp only [List.length_append, List.length_cons] at hn
      omega
    simp only [scan, hskip, hparam]
    rw [if_neg (List.cons_ne_nil _ _), if_neg hagree, ih (by simpa using ha) hlen]
    simp

theorem scan_sound {n : ℕ} {seen r : List Param} (h : scan cs n s seen = .ok r) (ha : Agree seen) :
    ∃ ps, Params cs s ps ∧ r = seen ++ ps ∧ Agree r := by
  induction n generalizing s seen with
  | zero => cases h
  | succ n ih =>
    obtain ⟨s₀, hb, hs⟩ := exists_skipSpace cs s
    rw [scan] at h
    by_cases hnil : skipSpace cs s = []
    · rw [if_pos hnil] at h
      cases h
      refine ⟨[], .nil ?_, (List.append_nil _).symm, ha⟩
      rwa [hs, hnil, List.append_nil]
    rw [if_neg hnil] at h
    rw [hs]
    cases hp : consumeMediaParam cs (skipSpace cs s) with
    | none =>
      simp only [hp] at h
      split_ifs at h with htrim
      cases h
      obtain ⟨s₁, t, h₁, ht, he⟩ := eq_semicolon_of_trimSpace htrim
      refine ⟨[], ?_, (List.append_nil _).symm, ha⟩
      rw [he]
      exact (Params.semicolon h₁ ht).blank_append hb
    | some result =>
      obtain ⟨p, rest⟩ := result
      simp only [hp] at h
      split_ifs at h with hdup
      obtain ⟨s₁, s₂, s₃, s₄, name, text, h₁, h₂, h₃, h₄, hn, hv, hpn, he⟩ :=
        consumeMediaParam_sound hp
      have hseen : Agree (seen ++ [p]) := by
        intro a ha' b hb' hab
        rcases List.mem_append.mp ha' with h1 | h1 <;> rcases List.mem_append.mp hb' with h2 | h2
        · exact ha a h1 b h2 hab
        · rw [List.mem_singleton.mp h2] at hab ⊢
          by_contra hne
          exact hdup ⟨a, h1, hab, hne⟩
        · rw [List.mem_singleton.mp h1] at hab ⊢
          by_contra hne
          exact hdup ⟨b, h2, hab.symm, Ne.symm hne⟩
        · rw [List.mem_singleton.mp h1, List.mem_singleton.mp h2]
      obtain ⟨ps, hps, rfl, hagree⟩ := ih h hseen
      refine ⟨p :: ps, ?_, by simp, hagree⟩
      rw [he]
      have hparam := (Params.param h₁ h₂ h₃ h₄ hn hv hps).blank_append hb
      rwa [← hpn] at hparam

/-- **The loop reads exactly the well-formed parameters.** -/
theorem scan_ok_iff {n : ℕ} (hn : s.length < n) :
    (∃ ps, scan cs n s [] = .ok ps) ↔ WellFormed cs s := by
  constructor
  · rintro ⟨r, hr⟩
    obtain ⟨ps, hps, he, ha⟩ := scan_sound hr (by rintro p ⟨⟩)
    rw [he, List.nil_append] at ha
    exact ⟨ps, hps, ha⟩
  · rintro ⟨ps, hps, ha⟩
    have hall : Agree ([] ++ ps) := ha
    exact ⟨[] ++ ps, scan_complete hps hall hn⟩

theorem parse_ok_iff {type : List Char} :
    (∃ ps, parse cs v = .ok (type, ps)) ↔ type = mediaType cs v ∧
      checkMediaTypeDisposition type = .ok () ∧ WellFormed cs (tail v) := by
  rw [← scan_ok_iff (Nat.lt_succ_self (tail v).length), parse]
  constructor
  · rintro ⟨params, h⟩
    cases hc : checkMediaTypeDisposition (mediaType cs v) with
    | error e => simp [hc, bind, Except.bind] at h
    | ok u =>
      cases hp : scan cs ((tail v).length + 1) (tail v) [] with
      | error e => simp [hc, hp, bind, Except.bind] at h
      | ok qs =>
        simp only [hc, hp, bind, Except.bind] at h
        cases h
        exact ⟨rfl, hc, _, rfl⟩
  · rintro ⟨rfl, hc, ps, hp⟩
    exact ⟨ps, by simp [hc, hp, bind, Except.bind]⟩

end Loon.MediaType
