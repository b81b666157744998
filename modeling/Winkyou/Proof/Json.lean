import Winkyou.Proof.Codec

/-!
# JSON texts determine their values

* `jsonString_split`, `jsonInt_injective`: a string and an integer can be read back from
  their texts.
* `jsonObject_split`: an object ends at its own closing brace and determines its members,
  since the first character of a value says how it ends (`IsValue`).
* `sealed_split`: the same for a record with its checksum.
* `utf8_injective`.
-/

namespace Winkyou

open List

variable {c : Char} {t u v rest rest' : List Char} {ms : List (String × List Char)}

theorem utf8_injective (h : utf8 t = utf8 u) : t = u := by
  have hb : t.utf8Encode = u.utf8Encode := by
    unfold utf8Encode
    exact congrArg toByteArray h
  have hs : String.ofList t = String.ofList u := by
    apply String.toByteArray_inj.1
    simpa using hb
  exact String.ofList_injective hs

/-- Two texts that stop before the same kind of character split there. -/
theorem split_at {p : Char → Prop} {s : List Char} {d : Char} (hu : ∀ x ∈ u, ¬ p x)
    (hv : ∀ x ∈ v, ¬ p x) (hc : p c) (hd : p d) (h : u ++ c :: s = v ++ d :: t) :
    u = v ∧ c = d ∧ s = t := by
  classical
  have htake := congrArg (takeWhile fun x => ¬ p x) h
  rw [takeWhile_append_of_pos (by simpa using hu), takeWhile_append_of_pos (by simpa using hv)] at htake
  obtain rfl : u = v := by simpa [hc, hd] using htake
  exact ⟨rfl, cons.inj (append_cancel_left h)⟩

/-! ## Strings -/

/-- Read one character of a string back. -/
def unescape : List Char → Option (Char × List Char)
  | '\x5c' :: 'u' :: a :: b :: c :: d :: rest => do
    let a ← fromHexChar a
    let b ← fromHexChar b
    let c ← fromHexChar c
    let d ← fromHexChar d
    some (Char.ofNat (a * 4096 + b * 256 + c * 16 + d), rest)
  | '\x5c' :: 'b' :: rest => some ('\x08', rest)
  | '\x5c' :: 'f' :: rest => some ('\x0c', rest)
  | '\x5c' :: 'n' :: rest => some ('\n', rest)
  | '\x5c' :: 'r' :: rest => some ('\r', rest)
  | '\x5c' :: 't' :: rest => some ('\t', rest)
  | '\x5c' :: c :: rest => some (c, rest)
  | c :: rest => some (c, rest)
  | [] => none

theorem char_of_toNat {n : ℕ} (h : c.toNat = n) : c = Char.ofNat n := by
  rw [← h, Char.ofNat_toNat]

theorem unescape_jsonEscape (c : Char) (rest : List Char) :
    unescape (jsonEscape c ++ rest) = some (c, rest) := by
  unfold jsonEscape
  dsimp only
  split
  · rename_i h
    rcases h with h | h <;> rw [char_of_toNat h] <;> rfl
  -- the five characters with an escape of their own
  iterate 5
    split
    · rename_i h
      rw [char_of_toNat h]; rfl
  split
  · rename_i h
    have hn : c.toNat < 65536 := by omega
    simp only [cons_append, nil_append, unescape]
    rw [fromHexChar_digitChar (by omega), fromHexChar_digitChar (by omega),
      fromHexChar_digitChar (by omega), fromHexChar_digitChar (by omega)]
    simp only [Option.bind_eq_bind, Option.bind_some]
    rw [show c.toNat / 4096 % 16 * 4096 + c.toNat / 256 % 16 * 256 + c.toNat / 16 % 16 * 16 + c.toNat / 1 % 16 =
      c.toNat by omega, Char.ofNat_toNat]
  · rename_i h _ _ _ _ _ _
    have hc : c ≠ '\x5c' := by
      rintro rfl
      exact h (.inr rfl)
    simp only [cons_append, nil_append]
    unfold unescape
    split <;> simp_all

theorem jsonEscape_head (c : Char) : ∃ d l, jsonEscape c = d :: l ∧ d ≠ '\x22' := by
  unfold jsonEscape
  dsimp only
  split
  · exact ⟨_, _, rfl, by decide⟩
  · rename_i h
    have hc : c ≠ '\x22' := by
      rintro rfl
      exact h (.inl rfl)
    repeat' split
    all_goals exact ⟨_, _, rfl, by first | exact hc | decide⟩

/-- **A string ends at its closing quote.** -/
theorem jsonString_split {s s' : String} {t' : List Char}
    (h : jsonString s ++ t = jsonString s' ++ t') :
    s = s' ∧ t = t' := by
  have hli : ∀ l l' : List Char, l.flatMap jsonEscape ++ '\x22' :: t = l'.flatMap jsonEscape ++
    '\x22' :: t' →
      l = l' ∧ t = t' := by
    intro l
    induction l with
    | nil =>
      intro l' h
      cases l' with
      | nil => simpa using h
      | cons c l' =>
        obtain ⟨d, k, hd, hne⟩ := jsonEscape_head c
        simp only [flatMap_cons, flatMap_nil, nil_append, hd, cons_append, cons.injEq] at h
        exact absurd h.1.symm hne
    | cons b l ih =>
      intro l' h
      cases l' with
      | nil =>
        obtain ⟨d, k, hd, hne⟩ := jsonEscape_head b
        simp only [flatMap_cons, flatMap_nil, nil_append, hd, cons_append, cons.injEq] at h
        exact absurd h.1 hne
      | cons c l' =>
        have h' := congrArg unescape h
        simp only [flatMap_cons, append_assoc, unescape_jsonEscape, Option.some.injEq,
          Prod.mk.injEq] at h'
        obtain ⟨rfl, h'⟩ := h'
        obtain ⟨h1, h2⟩ := ih l' h'
        exact ⟨by rw [h1], h2⟩
  simp only [jsonString, cons_append, append_assoc, nil_append, cons.injEq, true_and] at h
  obtain ⟨h1, h2⟩ := hli _ _ h
  exact ⟨String.toList_injective h1, h2⟩

/-! ## Integers -/

theorem jsonInt_chars {z : ℤ} (h : c ∈ jsonInt z) : c.isDigit = true ∨ c = '-' := by
  cases z with
  | ofNat n => exact .inl (Nat.isDigit_of_mem_toDigits (by decide) (by decide) h)
  | negSucc n =>
    rcases mem_cons.1 h with h | h
    · exact .inr h
    · exact .inl (Nat.isDigit_of_mem_toDigits (by decide) (by decide) h)

theorem jsonInt_injective {y z : ℤ} (h : jsonInt y = jsonInt z) : y = z := by
  have hmi : ∀ n l, Nat.toDigits 10 n ≠ '-' :: l := by
    intro n l hl
    have : ('-').isDigit = true :=
      Nat.isDigit_of_mem_toDigits (b := 10) (n := n) (by decide) (by decide) (by rw [hl]; simp)
    simp at this
  have hdig : ∀ m n, Nat.toDigits 10 m = Nat.toDigits 10 n → m = n := by
    intro m n hmn
    have := congrArg (Nat.ofDigitChars 10 · 0) hmn
    simpa using this
  cases y with
  | ofNat m =>
    cases z with
    | ofNat n => rw [hdig m n h]
    | negSucc n => exact absurd h (hmi _ _)
  | negSucc m =>
    cases z with
    | ofNat n => exact absurd h.symm (hmi _ _)
    | negSucc n =>
      have := hdig _ _ (cons.inj h).2
      rw [show m = n by omega]

/-! ## Objects -/

def memberText (m : String × List Char) : List Char :=
  '\x22' :: (m.1.toList ++ '\x22' :: ':' :: m.2)

/-- The text of an object after its first member. -/
def objectTail : List (String × List Char) → List Char
  | [] => ['\x7d']
  | m :: ms => ',' :: (memberText m ++ objectTail ms)

theorem jsonObject_cons (m : String × List Char) (ms : List (String × List Char)) :
    jsonObject (m :: ms) = '\x7b' :: (memberText m ++ objectTail ms) := by
  have h : ∀ (m : String × List Char) (ms : List (String × List Char)),
      ((((m :: ms).map memberText).intersperse [',']).flatten) ++ ['\x7d'] = memberText m ++
      objectTail ms := by
    intro m ms
    induction ms generalizing m with
    | nil => simp [objectTail]
    | cons m' ms ih =>
      have := ih m'
      simp only [map_cons, intersperse_cons_cons, flatten_cons, append_assoc, objectTail] at this ⊢
      rw [this]
      rfl
  exact congrArg _ (h m ms)

/-- The characters that end a value or start one with an end of its own. -/
def marks : List Char := ['\x22', '\x7b', ',', '\x7d']

/-- The text of a value: a string, a number or boolean, or an object of values. -/
inductive IsValue : List Char → Prop
  | string (s : String) : IsValue (jsonString s)
  | bare {c : Char} {v : List Char} (h : ∀ x ∈ c :: v, x ∉ marks) : IsValue (c :: v)
  | object {m : String × List Char} {ms : List (String × List Char)}
      (hkeys : ∀ x ∈ m :: ms, '\x22' ∉ x.1.toList)
      (hvalues : ∀ x ∈ m :: ms, IsValue x.2) : IsValue (jsonObject (m :: ms))

/-- What follows a value in an object. -/
def AfterValue (s : List Char) : Prop := ∃ c rest, s = c :: rest ∧ (c = ',' ∨ c = '\x7d')

/-- A value that ends where the text says that it ends. -/
def Splits (v : List Char) : Prop :=
  ∀ {v' s s' : List Char}, IsValue v' → AfterValue s → AfterValue s' → v ++ s = v' ++ s' → v = v' ∧
    s = s'

theorem afterValue_objectTail (ms : List (String × List Char)) (rest : List Char) :
    AfterValue (objectTail ms ++ rest) := by
  cases ms with
  | nil => exact ⟨_, _, rfl, .inr rfl⟩
  | cons m ms => exact ⟨_, _, rfl, .inl rfl⟩

theorem objectTail_split {ms' : List (String × List Char)} (hke : ∀ x ∈ ms, '\x22' ∉ x.1.toList)
    (hval : ∀ x ∈ ms, Splits x.2) (hke' : ∀ x ∈ ms', '\x22' ∉ x.1.toList)
    (hval' : ∀ x ∈ ms', IsValue x.2) (h : objectTail ms ++ rest = objectTail ms' ++ rest') :
    ms = ms' ∧ rest = rest' := by
  induction ms generalizing ms' with
  | nil =>
    cases ms' with
    | nil => exact ⟨rfl, (cons.inj h).2⟩
    | cons m' ms' => simp [objectTail] at h
  | cons m ms ih =>
    rcases ms' with _ | ⟨m', ms'⟩
    · simp [objectTail] at h
    rw [forall_mem_cons] at hke hval hke' hval'
    simp only [objectTail, memberText, cons_append, append_assoc, cons.injEq, true_and] at h
    -- the key, the value and the members after it
    obtain ⟨hkey, -, h⟩ := split_at (p := (· = '\x22')) (fun x hx he => hke.1 (he ▸ hx))
      (fun x hx he => hke'.1 (he ▸ hx)) rfl rfl h
    obtain ⟨hva, h⟩ := hval.1 hval'.1 (afterValue_objectTail _ _) (afterValue_objectTail _ _)
      (cons.inj h).2
    obtain ⟨hms, hre⟩ := ih hke.2 hval.2 hke'.2 hval'.2 h
    exact ⟨by rw [Prod.ext (String.toList_injective hkey) hva, hms], hre⟩

/-- **A value ends in one place**, whatever follows it. -/
theorem IsValue.splits (hv : IsValue v) : Splits v := by
  induction hv with
  | string s =>
    intro v' t t' hv' _ _ h
    cases hv' with
    | string s' =>
      obtain ⟨h1, h2⟩ := jsonString_split h
      exact ⟨by rw [h1], h2⟩
    | bare hb => exact absurd (hb _ mem_cons_self) (by rw [← (cons.inj h).1]; decide)
    | object => cases (cons.inj h).1
  | bare hb =>
    intro v' t t' hv' ⟨c, u, ht, hc⟩ ⟨c', u', ht', hc'⟩ h
    have hend : ∀ {w : List Char}, (∀ x ∈ w, x ∉ marks) → ∀ x ∈ w, ¬ (x = ',' ∨ x = '\x7d') := by
      rintro w hw x hx (rfl | rfl) <;> exact hw _ hx (by decide)
    cases hv' with
    | string s' => exact absurd (hb _ mem_cons_self) (by rw [(cons.inj h).1]; decide)
    | bare hb' =>
      subst ht ht'
      obtain ⟨h1, h2, h3⟩ := split_at (p := fun x => x = ',' ∨ x = '\x7d') (hend hb) (hend hb') hc hc' h
      exact ⟨h1, by rw [h2, h3]⟩
    | object => exact absurd (hb _ mem_cons_self) (by rw [(cons.inj h).1]; decide)
  | object hke hval ih =>
    intro v' t t' hv' _ _ h
    cases hv' with
    | string s' => cases (cons.inj h).1
    | bare hb => exact absurd (hb _ mem_cons_self) (by rw [← (cons.inj h).1]; decide)
    | object hke' hval' =>
      rw [jsonObject_cons, jsonObject_cons, cons_append, cons_append] at h
      obtain ⟨h1, h2⟩ := objectTail_split hke ih hke' hval' (congrArg (',' :: ·) (cons.inj h).2)
      exact ⟨by rw [h1], h2⟩

def IsMember (m : String × List Char) : Prop := '\x22' ∉ m.1.toList ∧ IsValue m.2

def Members (ms : List (String × List Char)) : Prop := ∀ m ∈ ms, IsMember m

@[simp] theorem members_nil : Members [] := fun _ h => nomatch h

variable {m : String × List Char}

@[simp] theorem members_cons {ms : List (String × List Char)} :
    Members (m :: ms) ↔ IsMember m ∧ Members ms := forall_mem_cons

@[simp] theorem members_append {ms ns : List (String × List Char)} :
    Members (ms ++ ns) ↔ Members ms ∧ Members ns := forall_mem_append

theorem isValue_object (h : Members (m :: ms)) : IsValue (jsonObject (m :: ms)) :=
  .object (fun x hx => (h x hx).1) (fun x hx => (h x hx).2)

/-- **An object ends at its own closing brace**, and determines its members. -/
theorem jsonObject_split {m' : String × List Char} {ms' : List (String × List Char)}
    (hms : Members (m :: ms)) (hms' : Members (m' :: ms'))
    (h : jsonObject (m :: ms) ++ rest = jsonObject (m' :: ms') ++ rest') :
    m :: ms = m' :: ms' ∧ rest = rest' := by
  rw [jsonObject_cons, jsonObject_cons, cons_append, cons_append] at h
  exact objectTail_split (fun x hx => (hms x hx).1) (fun x hx => (hms x hx).2.splits) (fun x hx =>
    (hms' x hx).1) (fun x hx => (hms' x hx).2) (congrArg (',' :: ·) (cons.inj h).2)

/-! ## Values -/

theorem isValue_of_bare (hne : v ≠ []) (h : ∀ x ∈ v, x ∉ marks) : IsValue v := by
  cases v with
  | nil => exact absurd rfl hne
  | cons c v => exact .bare h

theorem isValue_int (z : ℤ) : IsValue (jsonInt z) := by
  refine isValue_of_bare ?_ fun c hc hmark => ?_
  · cases z with
    | ofNat n => exact ne_nil_of_length_pos Nat.length_toDigits_pos
    | negSucc n => exact cons_ne_nil _ _
  · have hma : ∀ c ∈ marks, c.isDigit = false ∧ c ≠ '-' := by simp [marks]
    have hnot := hma c hmark
    rcases jsonInt_chars hc with h | h
    · rw [hnot.1] at h
      cases h
    · exact hnot.2 h

theorem isValue_bool (b : Bool) : IsValue (jsonBool b) := by
  exact isValue_of_bare (by cases b <;> decide) (forall_iff_forall_mem.1 (by cases b <;> decide))

/-- A character of a time or a checksum, which a string holds as it is. -/
def Unescaped (c : Char) : Prop :=
  45 ≤ c.toNat ∧ c.toNat ≤ 58 ∨ 65 ≤ c.toNat ∧ c.toNat ≤ 90 ∨ 97 ≤ c.toNat ∧ c.toNat ≤ 122

theorem isValue_unescaped (h : ∀ c ∈ u, Unescaped c) : IsValue ('\x22' :: (u ++ ['\x22'])) := by
  have hc : ∀ c ∈ u, jsonEscape c = [c] := by
    intro c hc
    have hra := h c hc
    unfold Unescaped at hra
    unfold jsonEscape
    dsimp only
    rw [if_neg (by omega), if_neg (by omega), if_neg (by omega), if_neg (by omega),
      if_neg (by omega), if_neg (by omega), if_neg (by omega)]
  have hte : jsonString (String.ofList u) = '\x22' :: (u ++ ['\x22']) := by
    rw [jsonString, String.toList_ofList, flatMap_congr hc, flatMap_singleton']
  exact hte ▸ .string _

theorem members_omitEmpty {key : String} (hk : '\x22' ∉ key.toList) (text : String) :
    Members (omitEmpty key text) := by
  unfold omitEmpty
  split
  · exact members_nil
  · exact members_cons.2 ⟨⟨hk, .string text⟩, members_nil⟩

theorem unescaped_of_fromHexChar (h : (fromHexChar c).isSome = true) : Unescaped c := by
  unfold fromHexChar at h
  unfold Unescaped
  dsimp only at h
  split_ifs at h <;> first | omega | cases h

/-- **A record with its checksum ends where its text ends**, and determines both. -/
theorem sealed_split {p p' checksum checksum' : List Char} (hp : IsValue p) (hp' : IsValue p')
    (hc : ∀ c ∈ checksum, (fromHexChar c).isSome = true)
    (hc' : ∀ c ∈ checksum', (fromHexChar c).isSome = true)
    (h : jsonObject [("record", p), ("checksum", '\x22' :: (checksum ++ ['\x22']))] ++ rest =
      jsonObject [("record", p'), ("checksum", '\x22' :: (checksum' ++ ['\x22']))] ++ rest') :
    p = p' ∧ checksum = checksum' ∧ rest = rest' := by
  have hmem : ∀ {p sum}, IsValue p → (∀ c ∈ sum, (fromHexChar c).isSome = true) →
      Members [("record", p), ("checksum", '\x22' :: (sum ++ ['\x22']))] := by
    intro p sum hp hsum
    have hva := isValue_unescaped fun c hc => unescaped_of_fromHexChar (hsum c hc)
    simp [IsMember, hp, hva]
  obtain ⟨hm, hre⟩ := jsonObject_split (hmem hp hc) (hmem hp' hc') h
  simp only [cons.injEq, Prod.mk.injEq, true_and, and_true] at hm
  exact ⟨hm.1, append_cancel_right hm.2, hre⟩

end Winkyou
