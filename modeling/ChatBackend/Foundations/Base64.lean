import Mathlib

/-!
# Base64

Encoding with padding, and the decoding of `binascii.a2b_base64`, character by character: the
position in a group of four, the bits that are left over and the padding are its state. It is
strict, or it passes over foreign characters. An encoding is decoded to the bytes it is of
(`decode_encode`), for any alphabet whose digits have their value.
-/

namespace ChatBackend.Base64

/-- 64 digits, and the value of a character. The padding is no digit. -/
structure Alphabet where
  digit : ℕ → Char
  value : Char → Option ℕ
  value_digit : ∀ n < 64, value (digit n) = some n
  digit_ne : ∀ n < 64, digit n ≠ '='

variable (A : Alphabet)

/-- The groups of three bytes, as four digits each; the last one is padded. -/
def encode : List UInt8 → List Char
  | [] => []
  | [a] => [A.digit (a.toNat / 4), A.digit (a.toNat % 4 * 16), '=', '=']
  | [a, b] =>
    [A.digit (a.toNat / 4), A.digit (a.toNat % 4 * 16 + b.toNat / 16), A.digit (b.toNat % 16 * 4), '=']
  | a :: b :: c :: rest =>
    A.digit (a.toNat / 4) :: A.digit (a.toNat % 4 * 16 + b.toNat / 16) ::
      A.digit (b.toNat % 16 * 4 + c.toNat / 64) :: A.digit (c.toNat % 64) :: encode rest

/-- The loop of the decoding: the position in the group, the bits that are left over, the padding
characters so far, and whether padding has started. -/
def decodeLoop (strict : Bool) :
    (quadPos leftchar pads : ℕ) → (started : Bool) → List Char → Option (List UInt8)
  | q, _, _, _, [] => if q = 0 then some [] else none
  | q, left, pads, started, c :: cs =>
    if c = '=' then
      if 2 ≤ q ∧ 4 ≤ q + (pads + 1) then if strict ∧ cs ≠ [] then none else some []
      else decodeLoop strict q left (if 2 ≤ q then pads + 1 else pads) true cs
    else
      match A.value c with
      | none => if strict then none else decodeLoop strict q left pads started cs
      | some v =>
        if strict ∧ started then none
        else
          match q with
          | 0 => decodeLoop strict 1 v 0 started cs
          | 1 => (decodeLoop strict 2 (v % 16) 0 started cs).map (UInt8.ofNat (left * 4 + v / 16) :: ·)
          | 2 => (decodeLoop strict 3 (v % 4) 0 started cs).map (UInt8.ofNat (left * 16 + v / 4) :: ·)
          | _ => (decodeLoop strict 0 0 0 started cs).map (UInt8.ofNat (left * 64 + v) :: ·)

/-- The decoding; strict, it allows no padding at the beginning. -/
def decode (strict : Bool) (text : List Char) : Option (List UInt8) :=
  if strict ∧ text.head? = some '=' then none else decodeLoop A strict 0 0 0 false text

variable {A} {strict : Bool} {left : ℕ} {cs : List Char} {n : ℕ}

section Digits

variable (hn : n < 64)
include hn

theorem loop_zero : decodeLoop A strict 0 left 0 false (A.digit n :: cs) =
    decodeLoop A strict 1 n 0 false cs := by
  simp [decodeLoop, A.value_digit n hn, A.digit_ne n hn]

theorem loop_one : decodeLoop A strict 1 left 0 false (A.digit n :: cs) =
    (decodeLoop A strict 2 (n % 16) 0 false cs).map (UInt8.ofNat (left * 4 + n / 16) :: ·) := by
  simp [decodeLoop, A.value_digit n hn, A.digit_ne n hn]

theorem loop_two : decodeLoop A strict 2 left 0 false (A.digit n :: cs) =
    (decodeLoop A strict 3 (n % 4) 0 false cs).map (UInt8.ofNat (left * 16 + n / 4) :: ·) := by
  simp [decodeLoop, A.value_digit n hn, A.digit_ne n hn]

theorem loop_three : decodeLoop A strict 3 left 0 false (A.digit n :: cs) =
    (decodeLoop A strict 0 0 0 false cs).map (UInt8.ofNat (left * 64 + n) :: ·) := by
  simp [decodeLoop, A.value_digit n hn, A.digit_ne n hn]

end Digits

theorem loop_pad : decodeLoop A strict 3 left 0 false ['='] = some [] := by
  simp [decodeLoop]

theorem loop_pad_pad : decodeLoop A strict 2 left 0 false ['=', '='] = some [] := by
  simp [decodeLoop]

/-- A byte from its halves. -/
theorem ofNat_eq {a : UInt8} {m : ℕ} (h : m = a.toNat) : UInt8.ofNat m = a := by
  rw [h, UInt8.ofNat_toNat]

theorem decodeLoop_encode (bytes : List UInt8) :
    decodeLoop A strict 0 0 0 false (encode A bytes) = some bytes := by
  induction bytes using encode.induct with
  | case1 => rfl
  | case2 a =>
    have ha := a.toNat_lt
    have hbyte : UInt8.ofNat (a.toNat / 4 * 4 + a.toNat % 4 * 16 / 16) = a := ofNat_eq (by omega)
    rw [encode, loop_zero (by omega), loop_one (by omega), loop_pad_pad, Option.map_some, hbyte]
  | case3 a b =>
    have ha := a.toNat_lt
    have hb := b.toNat_lt
    have hbyte : UInt8.ofNat (a.toNat / 4 * 4 + (a.toNat % 4 * 16 + b.toNat / 16) / 16) = a :=
      ofNat_eq (by omega)
    have hbyte' : UInt8.ofNat ((a.toNat % 4 * 16 + b.toNat / 16) % 16 * 16 + b.toNat % 16 * 4 / 4) = b :=
      ofNat_eq (by omega)
    rw [encode, loop_zero (by omega), loop_one (by omega), loop_two (by omega), loop_pad,
      Option.map_some, Option.map_some, hbyte, hbyte']
  | case4 a b c rest ih =>
    have ha := a.toNat_lt
    have hb := b.toNat_lt
    have hc := c.toNat_lt
    have hbyte : UInt8.ofNat (a.toNat / 4 * 4 + (a.toNat % 4 * 16 + b.toNat / 16) / 16) = a :=
      ofNat_eq (by omega)
    have hbyte' : UInt8.ofNat ((a.toNat % 4 * 16 + b.toNat / 16) % 16 * 16 +
        (b.toNat % 16 * 4 + c.toNat / 64) / 4) = b := ofNat_eq (by omega)
    have hbyte'' : UInt8.ofNat ((b.toNat % 16 * 4 + c.toNat / 64) % 4 * 64 + c.toNat % 64) = c :=
      ofNat_eq (by omega)
    rw [encode, loop_zero (by omega), loop_one (by omega), loop_two (by omega), loop_three (by omega),
      ih, Option.map_some, Option.map_some, Option.map_some, hbyte, hbyte', hbyte'']

/-- The first character of an encoding is a digit. -/
theorem head_encode (bytes : List UInt8) : (encode A bytes).head? ≠ some '=' := by
  have hdigit : ∀ a : UInt8, A.digit (a.toNat / 4) ≠ '=' := by
    intro a
    have ha := a.toNat_lt
    exact A.digit_ne _ (by omega)
  cases bytes using encode.fun_cases with
  | case1 => nofun
  | case2 a => exact fun h => hdigit a (Option.some.inj h)
  | case3 a b => exact fun h => hdigit a (Option.some.inj h)
  | case4 a b c rest => exact fun h => hdigit a (Option.some.inj h)

/-- **What is encoded is decoded.** -/
theorem decode_encode (bytes : List UInt8) : decode A strict (encode A bytes) = some bytes := by
  rw [decode, if_neg fun h => head_encode bytes h.2, decodeLoop_encode]

/-- The characters of an encoding. -/
theorem mem_encode {c : Char} (bytes : List UInt8) (hc : c ∈ encode A bytes) :
    c = '=' ∨ ∃ n < 64, c = A.digit n := by
  have hdigit : ∀ n < 64, A.digit n = '=' ∨ ∃ m < 64, A.digit n = A.digit m :=
    fun n hn => .inr ⟨n, hn, rfl⟩
  fun_induction encode A bytes with
  | case1 => cases hc
  | case2 a =>
    have := a.toNat_lt
    simp only [List.mem_cons, List.not_mem_nil, or_false] at hc
    rcases hc with rfl | rfl | rfl | rfl
    · exact hdigit _ (by omega)
    · exact hdigit _ (by omega)
    · exact .inl rfl
    · exact .inl rfl
  | case3 a b =>
    have := a.toNat_lt
    have := b.toNat_lt
    simp only [List.mem_cons, List.not_mem_nil, or_false] at hc
    rcases hc with rfl | rfl | rfl | rfl
    · exact hdigit _ (by omega)
    · exact hdigit _ (by omega)
    · exact hdigit _ (by omega)
    · exact .inl rfl
  | case4 a b c rest ih =>
    have := a.toNat_lt
    have := b.toNat_lt
    have := c.toNat_lt
    simp only [List.mem_cons] at hc
    rcases hc with rfl | rfl | rfl | rfl | hc
    · exact hdigit _ (by omega)
    · exact hdigit _ (by omega)
    · exact hdigit _ (by omega)
    · exact hdigit _ (by omega)
    · exact ih hc

/-! ## What is decoded -/

/-- How many bytes `digits` digits with `pads` padding characters are worth: three for each group of
four, and the rest when the padding fills the last one. Padding after complete groups is passed over. -/
def Worth (digits pads bytes : ℕ) : Prop :=
  digits % 4 = 0 ∧ bytes = digits / 4 * 3 ∨
    digits % 4 = 2 ∧ pads = 2 ∧ bytes = digits / 4 * 3 + 1 ∨
    digits % 4 = 3 ∧ pads = 1 ∧ bytes = digits / 4 * 3 + 2

section Strict

variable {text : List Char} {bytes : List UInt8} {q pads : ℕ}

/-- Once padding has started only padding follows, and fills the group that it has started in. -/
theorem padding_of_decodeLoop (hq : q + pads ≤ 3)
    (h : decodeLoop A true q left pads true text = some bytes) :
    bytes = [] ∧ (∀ c ∈ text, c = '=') ∧ (q = 0 ∨ 2 ≤ q ∧ q + pads + text.length = 4) := by
  induction text generalizing pads with
  | nil =>
    rw [decodeLoop] at h
    split at h
    · rename_i hzero
      cases h
      exact ⟨rfl, nofun, .inl hzero⟩
    · cases h
  | cons c cs ih =>
    rw [decodeLoop] at h
    split at h
    · rename_i hc
      subst hc
      split at h
      · rename_i hfull
        split at h
        · cases h
        · rename_i hlast
          obtain rfl : cs = [] := by simpa using hlast
          cases h
          exact ⟨rfl, by simp, .inr ⟨hfull.1, by simp; omega⟩⟩
      · rename_i hopen
        obtain ⟨hbytes, hpads, hend⟩ := ih (by split <;> omega) h
        refine ⟨hbytes, by simpa using hpads, hend.imp_right fun hend => ?_⟩
        obtain ⟨htwo, hlen⟩ := hend
        rw [if_pos htwo] at hlen
        rw [List.length_cons]
        omega
    · split at h
      · cases h
      · simp at h

/-- What is decoded from a position in a group: digits, and then padding. -/
theorem digits_of_decodeLoop (hq : q ≤ 3) (h : decodeLoop A true q left 0 false text = some bytes) :
    ∃ digits k, text = digits ++ List.replicate k '=' ∧ '=' ∉ digits ∧
      Worth (q + digits.length) k (bytes.length + (q - 1)) := by
  induction text generalizing q left bytes with
  | nil =>
    rw [decodeLoop] at h
    split at h
    · rename_i hzero
      subst hzero
      cases h
      exact ⟨[], 0, rfl, List.not_mem_nil, .inl ⟨rfl, rfl⟩⟩
    · cases h
  | cons c cs ih =>
    rw [decodeLoop] at h
    split at h
    · rename_i hc
      subst hc
      split at h
      · rename_i hfull
        split at h
        · cases h
        · rename_i hlast
          obtain rfl : cs = [] := by simpa using hlast
          cases h
          obtain rfl : q = 3 := by omega
          exact ⟨[], 1, rfl, List.not_mem_nil, .inr (.inr ⟨rfl, rfl, rfl⟩)⟩
      · rename_i hopen
        obtain ⟨rfl, hpads, hend⟩ := padding_of_decodeLoop (by split <;> omega) h
        have htext : '=' :: cs = List.replicate (cs.length + 1) '=' :=
          List.eq_replicate_of_mem (by simpa using hpads)
        refine ⟨[], cs.length + 1, htext, List.not_mem_nil, ?_⟩
        simp only [List.length_nil]
        rcases hend with rfl | ⟨htwo, hlen⟩
        · exact .inl ⟨rfl, rfl⟩
        · rw [if_pos htwo] at hlen
          obtain rfl : q = 2 := by omega
          exact .inr (.inl ⟨rfl, by omega, rfl⟩)
    · rename_i hne
      -- a digit: the rest is decoded from the next position
      have hcons : ∀ {digits k}, cs = digits ++ List.replicate k '=' → '=' ∉ digits →
          c :: cs = (c :: digits) ++ List.replicate k '=' ∧ '=' ∉ c :: digits := by
        rintro digits k rfl hdigits
        exact ⟨rfl, by simp [hdigits, Ne.symm hne]⟩
      split at h
      · cases h
      · simp only [Bool.false_eq_true, and_false, if_false] at h
        rcases q with _ | _ | _ | _ | q
        · obtain ⟨digits, k, htext, hdigits, hworth⟩ := ih (by omega) h
          refine ⟨c :: digits, k, (hcons htext hdigits).1, (hcons htext hdigits).2, ?_⟩
          simp only [Worth, List.length_cons] at hworth ⊢
          omega
        · obtain ⟨bytes', hrest, rfl⟩ := Option.map_eq_some_iff.1 h
          obtain ⟨digits, k, htext, hdigits, hworth⟩ := ih (by omega) hrest
          refine ⟨c :: digits, k, (hcons htext hdigits).1, (hcons htext hdigits).2, ?_⟩
          simp only [Worth, List.length_cons] at hworth ⊢
          omega
        · obtain ⟨bytes', hrest, rfl⟩ := Option.map_eq_some_iff.1 h
          obtain ⟨digits, k, htext, hdigits, hworth⟩ := ih (by omega) hrest
          refine ⟨c :: digits, k, (hcons htext hdigits).1, (hcons htext hdigits).2, ?_⟩
          simp only [Worth, List.length_cons] at hworth ⊢
          omega
        · obtain ⟨bytes', hrest, rfl⟩ := Option.map_eq_some_iff.1 h
          obtain ⟨digits, k, htext, hdigits, hworth⟩ := ih (by omega) hrest
          refine ⟨c :: digits, k, (hcons htext hdigits).1, (hcons htext hdigits).2, ?_⟩
          simp only [Worth, List.length_cons] at hworth ⊢
          omega
        · omega

/-- **What is decoded**: digits and padding, worth the bytes. -/
theorem digits_of_decode (h : decode A true text = some bytes) : ∃ digits k,
    text = digits ++ List.replicate k '=' ∧ '=' ∉ digits ∧ Worth digits.length k bytes.length := by
  unfold decode at h
  split at h
  · cases h
  · simpa using digits_of_decodeLoop (Nat.zero_le 3) h

/-- Every character that is decoded is a digit or padding. -/
theorem value_of_decodeLoop {started : Bool}
    (h : decodeLoop A true q left pads started text = some bytes) :
    ∀ c ∈ text, c = '=' ∨ (A.value c).isSome := by
  induction text generalizing q left pads started bytes with
  | nil => exact nofun
  | cons c cs ih =>
    rw [decodeLoop] at h
    split at h
    · rename_i hc
      refine List.forall_mem_cons.2 ⟨.inl hc, ?_⟩
      split at h
      · split at h
        · cases h
        · rename_i hlast
          obtain rfl : cs = [] := by simpa using hlast
          exact nofun
      · exact ih h
    · split at h
      · cases h
      · rename_i v hv
        refine List.forall_mem_cons.2 ⟨.inr (by simp [hv]), ?_⟩
        split at h
        · cases h
        · split at h
          · exact ih h
          all_goals
            obtain ⟨bytes', hrest, -⟩ := Option.map_eq_some_iff.1 h
            exact ih hrest

/-- A text that is decoded does not begin with padding. -/
theorem head_of_decode (h : decode A true text = some bytes) : text.head? ≠ some '=' := by
  unfold decode at h
  split at h
  · cases h
  · rename_i hhead
    simpa using hhead

/-- A text that is decoded is of digits and padding. -/
theorem value_of_decode (h : decode A true text = some bytes) :
    ∀ c ∈ text, c = '=' ∨ (A.value c).isSome := by
  unfold decode at h
  split at h
  · cases h
  · exact value_of_decodeLoop h

end Strict

/-! ## Without the padding -/

/-- A text without the padding at its end. -/
def trim (text : List Char) : List Char := text.rdropWhile (· = '=')

/-- A text with the padding that fills its last group. -/
def pad (text : List Char) : List Char := text ++ List.replicate ((4 - text.length % 4) % 4) '='

/-- An encoding is digits, and then the padding of the last group. -/
theorem exists_digits (bytes : List UInt8) : ∃ (ds : List Char) (p : ℕ),
    encode A bytes = ds ++ List.replicate p '=' ∧ '=' ∉ ds ∧ p < 4 ∧ (ds.length + p) % 4 = 0 := by
  have hdigit : ∀ n < 64, '=' ≠ A.digit n := fun n hn h => A.digit_ne n hn h.symm
  fun_induction encode A bytes with
  | case1 => exact ⟨[], 0, rfl, List.not_mem_nil, by omega, rfl⟩
  | case2 a =>
    have ha := a.toNat_lt
    refine ⟨[_, _], 2, rfl, ?_, by omega, by simp⟩
    simp only [List.mem_cons, List.not_mem_nil, or_false, not_or]
    exact ⟨hdigit _ (by omega), hdigit _ (by omega)⟩
  | case3 a b =>
    have ha := a.toNat_lt
    have hb := b.toNat_lt
    refine ⟨[_, _, _], 1, rfl, ?_, by omega, by simp⟩
    simp only [List.mem_cons, List.not_mem_nil, or_false, not_or]
    exact ⟨hdigit _ (by omega), hdigit _ (by omega), hdigit _ (by omega)⟩
  | case4 a b c rest ih =>
    have ha := a.toNat_lt
    have hb := b.toNat_lt
    have hc := c.toNat_lt
    obtain ⟨ds, p, heq, hds, hp, hlen⟩ := ih
    refine ⟨_ :: _ :: _ :: _ :: ds, p, by rw [heq]; rfl, ?_, hp, ?_⟩
    · simp only [List.mem_cons, not_or]
      exact ⟨hdigit _ (by omega), hdigit _ (by omega), hdigit _ (by omega), hdigit _ (by omega), hds⟩
    · simp only [List.length_cons]
      omega

theorem trim_append {ds : List Char} (h : '=' ∉ ds) (p : ℕ) : trim (ds ++ List.replicate p '=') = ds := by
  have hpads : ∀ c ∈ List.replicate p '=', decide (c = '=') = true :=
    fun c hc => decide_eq_true (List.eq_of_mem_replicate hc)
  rw [trim, List.rdropWhile, List.reverse_append, List.reverse_replicate,
    List.dropWhile_append_of_pos hpads]
  refine List.reverse_eq_iff.2 (List.dropWhile_eq_self_iff.2 fun hpos => ?_)
  intro hc
  exact h (of_decide_eq_true hc ▸ List.mem_reverse.1 (List.getElem_mem hpos))

/-- **The padding of an encoding is found again.** -/
theorem pad_trim_encode (bytes : List UInt8) : pad (trim (encode A bytes)) = encode A bytes := by
  obtain ⟨ds, p, heq, hds, hp, hlen⟩ := exists_digits (A := A) bytes
  have hpads : (4 - ds.length % 4) % 4 = p := by omega
  rw [heq, trim_append hds, pad, hpads]

/-- What is left of an encoding are digits. -/
theorem mem_trim_encode {c : Char} (bytes : List UInt8) (hc : c ∈ trim (encode A bytes)) :
    ∃ n < 64, c = A.digit n := by
  obtain ⟨ds, p, heq, hds, -, -⟩ := exists_digits (A := A) bytes
  rw [heq, trim_append hds] at hc
  have hmem : c ∈ encode A bytes := heq ▸ List.mem_append_left _ hc
  rcases mem_encode bytes hmem with rfl | hdigit
  · exact absurd hc hds
  · exact hdigit

/-! ## The alphabets -/

/-- The digits up to the last two. -/
def digits : List Char := "ABCDEFGHIJKLMNOPQRSTUVWXYZabcdefghijklmnopqrstuvwxyz0123456789".toList

/-- The alphabet of `b64encode`. -/
def standard : Alphabet where
  digit n := (digits ++ ['+', '/']).getD n '='
  value c := (digits ++ ['+', '/']).findIdx? (· = c)
  value_digit := by decide +kernel
  digit_ne := by decide +kernel

/-- The alphabet of `urlsafe_b64encode`; its decoding knows the other two characters as well. -/
def urlsafe : Alphabet where
  digit n := (digits ++ ['-', '_']).getD n '='
  value c := (digits ++ ['+', '/']).findIdx? (· = if c = '-' then '+' else if c = '_' then '/' else c)
  value_digit := by decide +kernel
  digit_ne := by decide +kernel

/-- `base64.b64decode(data, validate=True)`. -/
def b64decode (data : String) : Option (List UInt8) := decode standard true data.toList

example : encode standard [77, 97, 110, 33] = "TWFuIQ==".toList := by decide +kernel

end ChatBackend.Base64
