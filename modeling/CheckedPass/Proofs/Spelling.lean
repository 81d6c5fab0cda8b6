import CheckedPass.Expr.Literal
import Mathlib.Tactic.SplitIfs
/-!
# Words, numbers and quoted characters

A text that stands among others has to show where it ends. A word ends at the first character that
no word has, a quoted character at its second quote that is not escaped. So whatever follows them,
two such texts are equal or can be told apart, and a literal is known from its text.
-/

namespace CheckedPass

namespace Text

variable {r r' : List Char}

/-- A text ends with the first character that is not of its kind. -/
private theorem append_inj_of_all {p : Char → Prop} {w w' : List Char} (hw : ∀ c ∈ w, p c)
    (hw' : ∀ c ∈ w', p c) (hr : ∀ c ∈ r.head?, ¬p c) (hr' : ∀ c ∈ r'.head?, ¬p c)
    (h : w ++ r = w' ++ r') : w = w' ∧ r = r' := by
  induction w generalizing w' with
  | nil =>
    cases w' with
    | nil => exact ⟨rfl, h⟩
    | cons c w' =>
      have hhead : r.head? = some c := by simpa using congrArg List.head? h
      exact absurd (hw' c List.mem_cons_self) (hr c (by simp [hhead]))
  | cons c w ih =>
    cases w' with
    | nil =>
      have hhead : r'.head? = some c := by simpa using (congrArg List.head? h).symm
      exact absurd (hw c List.mem_cons_self) (hr' c (by simp [hhead]))
    | cons c' w' =>
      obtain ⟨hc, hrest⟩ := List.cons.inj h
      have hws := (List.forall_mem_cons.mp hw).2
      have hws' := (List.forall_mem_cons.mp hw').2
      obtain ⟨hword, hr₁⟩ := ih hws hws' hrest
      exact ⟨by rw [hc, hword], hr₁⟩

theorem append_ne_of_head {w w' : List Char} {c c' : Char} (hw : w.head? = some c)
    (hw' : w'.head? = some c') (hne : c ≠ c') : w ++ r ≠ w' ++ r' := by
  intro h
  have hsame := congrArg List.head? h
  rw [List.head?_append, List.head?_append, hw, hw'] at hsame
  exact hne (Option.some.inj hsame)

private theorem digitChar_inj {i j : Nat} (hi : i < 16) (hj : j < 16)
    (h : i.digitChar = j.digitChar) : i = j := by
  have htable : ∀ i < 16, ∀ j < 16, i.digitChar = j.digitChar → i = j := by decide
  exact htable i hi j hj h

private theorem toDigits_inj {b n m : Nat} (hb : 1 < b) (hb' : b ≤ 16)
    (h : Nat.toDigits b n = Nat.toDigits b m) : n = m := by
  induction n using Nat.strongRecOn generalizing m with
  | ind n ih =>
    rw [Nat.toDigits_eq_if hb, Nat.toDigits_eq_if (n := m) hb] at h
    by_cases hn : n < b
    · by_cases hm : m < b
      · simp only [hn, hm, if_true, List.cons.injEq, and_true] at h
        exact digitChar_inj (by omega) (by omega) h
      · have hlen := congrArg List.length h
        simp [hn, hm] at hlen
    · by_cases hm : m < b
      · have hlen := congrArg List.length h
        simp [hn, hm] at hlen
      · rw [if_neg hn, if_neg hm] at h
        obtain ⟨hhigh, hlow⟩ := List.append_inj' h rfl
        have hquotient : n / b = m / b := ih (n / b) (Nat.div_lt_self (by omega) hb) hhigh
        have hlast : ∀ k, k % b < 16 := fun k =>
          Nat.lt_of_lt_of_le (Nat.mod_lt k (by omega)) hb'
        have hremainder : n % b = m % b :=
          digitChar_inj (hlast n) (hlast m) (List.cons.inj hlow).1
        rw [← Nat.div_add_mod n b, ← Nat.div_add_mod m b, hquotient, hremainder]

private theorem ne_brace_of_mem_toDigits {n : Nat} {c : Char} (h : c ∈ Nat.toDigits 16 n) :
    c ≠ '\x7d' := by
  induction n using Nat.strongRecOn with
  | ind n ih =>
    have hdigit : ∀ i < 16, i.digitChar ≠ '\x7d' := by decide
    rw [Nat.toDigits_eq_if (by decide)] at h
    by_cases hn : n < 16
    · simp only [hn, if_true, List.mem_singleton] at h
      rw [h]
      exact hdigit n hn
    · simp only [hn, if_false, List.mem_append, List.mem_singleton] at h
      rcases h with h | h
      · exact ih (n / 16) (by omega) h
      · rw [h]
        exact hdigit (n % 16) (by omega)

/-- The character that a short escape stands for. -/
def ofShort : Char → Char
  | '0' => '\x00'
  | 't' => '\t'
  | 'r' => '\r'
  | 'n' => '\n'
  | c => c

/-- What stands between the quotes for a character: a short escape, its code point, or itself. -/
inductive Escaped : Char → List Char → Prop
  | short (k : Char) (hk : k ≠ 'u') : Escaped (ofShort k) ['\x5c', k]
  | code (c : Char) :
    Escaped c ('\x5c' :: 'u' :: '\x7b' :: (Nat.toDigits 16 c.toNat ++ ['\x7d']))
  | plain (c : Char) (hc : c ≠ '\x5c') : Escaped c [c]

private theorem escaped_escape (c : Char) : Escaped c (escape c).toList := by
  unfold escape
  split_ifs with hnul htab hreturn hnewline hbackslash hquote hhidden
  · exact hnul ▸ .short '0' (by decide)
  · exact htab ▸ .short 't' (by decide)
  · exact hreturn ▸ .short 'r' (by decide)
  · exact hnewline ▸ .short 'n' (by decide)
  · exact hbackslash ▸ .short '\x5c' (by decide)
  · exact hquote ▸ .short '\x27' (by decide)
  · simpa [hexadecimal] using Escaped.code c
  · simpa using Escaped.plain c hbackslash

theorem Escaped.append_inj {c c' q : Char} {w w' : List Char} (h : Escaped c w)
    (h' : Escaped c' w') (heq : w ++ q :: r = w' ++ q :: r') : c = c' ∧ r = r' := by
  cases h with
  | short k hk =>
    cases h' with
    | short k' hk' =>
      obtain ⟨rfl, rfl⟩ : k = k' ∧ r = r' := by simpa using heq
      exact ⟨rfl, rfl⟩
    | code => exact absurd (List.cons.inj (List.cons.inj heq).2).1 hk
    | plain _ hc' => exact absurd (List.cons.inj heq).1.symm hc'
  | code =>
    cases h' with
    | short k' hk' => exact absurd (List.cons.inj (List.cons.inj heq).2).1.symm hk'
    | code =>
      have hdigits : Nat.toDigits 16 c.toNat ++ '\x7d' :: q :: r =
          Nat.toDigits 16 c'.toNat ++ '\x7d' :: q :: r' := by simpa using heq
      have hends : ∀ u, ∀ d ∈ ('\x7d' :: q :: u : List Char).head?, ¬d ≠ '\x7d' := by simp
      obtain ⟨hcode, hrest⟩ := append_inj_of_all (fun _ => ne_brace_of_mem_toDigits)
        (fun _ => ne_brace_of_mem_toDigits) (hends r) (hends r') hdigits
      exact ⟨Char.toNat_inj.mp (toDigits_inj (by decide) (by decide) hcode), by simpa using hrest⟩
    | plain _ hc' => exact absurd (List.cons.inj heq).1.symm hc'
  | plain _ hc =>
    cases h' with
    | short => exact absurd (List.cons.inj heq).1 hc
    | code => exact absurd (List.cons.inj heq).1 hc
    | plain => simpa using heq

private theorem quoted_append_inj {c c' : Char}
    (h : (quoted c).toList ++ r = (quoted c').toList ++ r') : c = c' ∧ r = r' := by
  have hafter : (escape c).toList ++ '\x27' :: r = (escape c').toList ++ '\x27' :: r' := by
    simpa [quoted] using h
  exact (escaped_escape c).append_inj (escaped_escape c') hafter

/-- A character that words may have: none of those that set texts apart. -/
def IsPlain (c : Char) : Prop :=
  c ≠ ' ' ∧ c ≠ '(' ∧ c ≠ ')' ∧ c ≠ '\x27'

instance : DecidablePred IsPlain :=
  fun _ => inferInstanceAs (Decidable (_ ∧ _))

private theorem isPlain_of_kind {p : Char → Prop} {c : Char} (hc : p c)
    (hmarks : ¬p ' ' ∧ ¬p '(' ∧ ¬p ')' ∧ ¬p '\x27') : IsPlain c := by
  obtain ⟨hspace, hopen, hclose, hquote⟩ := hmarks
  exact ⟨fun h => hspace (h ▸ hc), fun h => hopen (h ▸ hc), fun h => hclose (h ▸ hc),
    fun h => hquote (h ▸ hc)⟩

/-- A text without parts: a word, or a quoted character, whatever that is. -/
inductive IsToken : String → Prop
  | word {w : String} (hne : w ≠ "") (hplain : ∀ c ∈ w.toList, IsPlain c) : IsToken w
  | quoted (c : Char) : IsToken (Text.quoted c)

theorem IsToken.of_all {w : String} (h : w ≠ "" ∧ w.toList.all (fun c => IsPlain c) = true) :
    IsToken w := by
  apply IsToken.word h.1
  simpa using h.2

/-- What follows a text: nothing, a space or a closing parenthesis. -/
def Ended (r : List Char) : Prop :=
  ∀ c ∈ r.head?, c = ' ' ∨ c = ')'

private theorem Ended.not_plain (hr : Ended r) : ∀ c ∈ r.head?, ¬IsPlain c := by
  intro c hc hplain
  rcases hr c hc with h | h
  · exact hplain.1 h
  · exact hplain.2.2.1 h

private theorem exists_head {w : String} (hne : w ≠ "") :
    ∃ c ∈ w.toList, w.toList.head? = some c := by
  obtain ⟨c, u, hcons⟩ := List.exists_cons_of_ne_nil (mt String.toList_eq_nil_iff.mp hne)
  rw [hcons]
  exact ⟨c, List.mem_cons_self, rfl⟩

private theorem head_quoted (c : Char) : (quoted c).toList.head? = some '\x27' := by
  simp [quoted]

theorem IsToken.head {w : String} (h : IsToken w) :
    ∃ c, w.toList.head? = some c ∧ c ≠ ' ' ∧ c ≠ '(' ∧ c ≠ ')' := by
  cases h with
  | word hne hplain =>
    obtain ⟨c, hc, hhead⟩ := exists_head hne
    obtain ⟨hspace, hopen, hclose, -⟩ := hplain c hc
    exact ⟨c, hhead, hspace, hopen, hclose⟩
  | quoted c => exact ⟨'\x27', head_quoted c, by decide⟩

private theorem word_ne_quoted {w : String} (hne : w ≠ "") (hplain : ∀ c ∈ w.toList, IsPlain c)
    {c : Char} : w.toList ++ r ≠ (quoted c).toList ++ r' := by
  obtain ⟨d, hd, hhead⟩ := exists_head hne
  exact append_ne_of_head hhead (head_quoted c) (hplain d hd).2.2.2

theorem IsToken.append_inj {w w' : String} (h : IsToken w) (h' : IsToken w') (hr : Ended r)
    (hr' : Ended r') (heq : w.toList ++ r = w'.toList ++ r') : w = w' ∧ r = r' := by
  cases h with
  | word hne hplain =>
    cases h' with
    | word hne' hplain' =>
      obtain ⟨hw, hrest⟩ := append_inj_of_all hplain hplain' hr.not_plain hr'.not_plain heq
      exact ⟨String.toList_inj.mp hw, hrest⟩
    | quoted c' => exact absurd heq (word_ne_quoted hne hplain)
  | quoted c =>
    cases h' with
    | word hne' hplain' => exact absurd heq.symm (word_ne_quoted hne' hplain')
    | quoted c' =>
      obtain ⟨hc, hrest⟩ := quoted_append_inj heq
      exact ⟨by rw [hc], hrest⟩

/-- A character that whole numbers are written with. -/
def IsNumeric (c : Char) : Prop :=
  c.isDigit = true ∨ c = '-'

instance : DecidablePred IsNumeric :=
  fun _ => inferInstanceAs (Decidable (_ ∨ _))

private theorem isDigit_of_mem_repr {n : Nat} {c : Char} (h : c ∈ n.repr.toList) :
    c.isDigit = true := by
  rw [Nat.repr_eq_ofList_toDigits, String.toList_ofList] at h
  exact Nat.isDigit_of_mem_toDigits (by decide) (by decide) h

private theorem repr_inj {n m : Nat} (h : n.repr = m.repr) : n = m := by
  rw [Nat.repr_eq_ofList_toDigits, Nat.repr_eq_ofList_toDigits, String.ofList_inj] at h
  exact toDigits_inj (by decide) (by decide) h

private theorem isNumeric_of_mem_toString {n : Int} {c : Char} (h : c ∈ (toString n).toList) :
    IsNumeric c := by
  rw [Int.toString_eq_repr, Int.repr_eq_if] at h
  by_cases hn : 0 ≤ n
  · rw [if_pos hn] at h
    exact .inl (isDigit_of_mem_repr h)
  · rw [if_neg hn, String.toList_append, List.mem_append] at h
    rcases h with h | h
    · exact .inr (by simpa using h)
    · exact .inl (isDigit_of_mem_repr h)

private theorem toString_inj {n m : Int} (h : toString n = toString m) : n = m := by
  -- The sign is no digit, so it tells the negative numbers from the others.
  have hsign : ∀ {k l : Nat}, k.repr ≠ "-" ++ l.repr := by
    intro k l heq
    have hdigit : '-'.isDigit = true := isDigit_of_mem_repr (n := k) (by simp [heq])
    exact absurd hdigit (by decide)
  rw [Int.toString_eq_repr, Int.toString_eq_repr, Int.repr_eq_if, Int.repr_eq_if] at h
  by_cases hn : 0 ≤ n <;> by_cases hm : 0 ≤ m <;> simp only [hn, hm, if_true, if_false] at h
  · have hsize := repr_inj h
    omega
  · exact absurd h hsign
  · exact absurd h.symm hsign
  · have hsize := repr_inj ((String.append_right_inj _).mp h)
    omega

private theorem head_toString (n : Int) :
    ∃ c, (toString n).toList.head? = some c ∧ IsNumeric c := by
  have hne : toString n ≠ "" := by
    rw [Int.toString_eq_repr, Int.repr_eq_if]
    split <;> simp
  obtain ⟨c, hc, hhead⟩ := exists_head hne
  exact ⟨c, hhead, isNumeric_of_mem_toString hc⟩

private theorem IsNumeric.isPlain {c : Char} (h : IsNumeric c) : IsPlain c :=
  isPlain_of_kind h (by decide)

/-- Letters, digits and underscores, no digit first, and not the text of a truth value. -/
structure IsName (x : String) : Prop where
  nonempty : x ≠ ""
  characters : ∀ c ∈ x.toList, c.isAlphanum = true ∨ c = '_'
  no_digit_first : ∀ c ∈ x.toList.head?, c.isDigit = false
  not_true : x ≠ "true"
  not_false : x ≠ "false"

private theorem isName_iff {x : String} : IsName x ↔
    x ≠ "" ∧ x.toList.all (fun c => c.isAlphanum || c == '_') = true ∧
      x.toList.head?.all (fun c => !c.isDigit) = true ∧ x ≠ "true" ∧ x ≠ "false" := by
  constructor
  · intro h
    exact ⟨h.nonempty, by simpa using h.characters, by simpa [Option.all_eq_true] using
      h.no_digit_first, h.not_true, h.not_false⟩
  · intro ⟨hne, hchars, hfirst, htrue, hfalse⟩
    exact ⟨hne, by simpa using hchars, by simpa [Option.all_eq_true] using hfirst, htrue, hfalse⟩

instance : DecidablePred IsName :=
  fun _ => decidable_of_iff _ isName_iff.symm

theorem IsName.isToken {x : String} (h : IsName x) : IsToken x := by
  apply IsToken.word h.nonempty
  intro c hc
  exact isPlain_of_kind (p := fun d => d.isAlphanum = true ∨ d = '_') (h.characters c hc)
    (by decide)

end Text

namespace Literal

variable {a b : Literal}

/-- The number that the text of a literal begins with, and what is written after it. -/
def numeral? : Literal → Option (Int × List Char)
  | .int n => some (n, [])
  | .real f => some (f.num, if f.den = 1 then ['r'] else '/' :: ((toString f.den).toList ++ ['r']))
  | .bitVector width magnitude => some (magnitude, 'b' :: 'v' :: (toString width.toNat).toList)
  | .ordinal n => some (n, ['o', 'r', 'd'])
  | _ => none

/-- The text is the number, as it is, and what is written after it, which is no part of the number
and has nothing in it that words have not. -/
private theorem text_of_numeral? {n : Int} {t : List Char} (h : a.numeral? = some (n, t)) :
    a.text.toList = (toString n).toList ++ t ∧ (∀ c ∈ t.head?, ¬Text.IsNumeric c) ∧
      ∀ c ∈ t, Text.IsPlain c := by
  have hplain : ∀ {m : Int} {c : Char}, c ∈ (toString m).toList → Text.IsPlain c :=
    fun hc => (Text.isNumeric_of_mem_toString hc).isPlain
  cases a with
  | unit => simp [numeral?] at h
  | bool b => simp [numeral?] at h
  | char c => simp [numeral?] at h
  | int m =>
    obtain ⟨rfl, rfl⟩ : m = n ∧ [] = t := by simpa [numeral?] using h
    simp [text]
  | real f =>
    obtain ⟨rfl, rfl⟩ : f.num = n ∧ _ = t := by simpa [numeral?] using h
    by_cases hden : f.den = 1
    · simp only [hden, if_true]
      exact ⟨by simp [text, Fraction.text, Fraction.spell, hden], by simp [Text.IsNumeric],
        by simp [Text.IsPlain]⟩
    · simp only [hden, if_false]
      refine ⟨by simp [text, Fraction.text, Fraction.spell, hden], by simp [Text.IsNumeric], ?_⟩
      intro c hc
      simp only [List.mem_cons, List.mem_append, List.not_mem_nil, or_false] at hc
      rcases hc with rfl | hc | rfl
      · decide
      · exact hplain hc
      · decide
  | bitVector width magnitude =>
    obtain ⟨rfl, rfl⟩ : (magnitude : Int) = n ∧ _ = t := by
      simpa only [numeral?, Option.some.injEq, Prod.mk.injEq] using h
    have hnumber : toString (magnitude : Int) = toString magnitude := rfl
    refine ⟨by rw [hnumber]; simp [text], by simp [Text.IsNumeric], ?_⟩
    intro c hc
    simp only [List.mem_cons] at hc
    rcases hc with rfl | rfl | hc
    · decide
    · decide
    · exact hplain (m := width.toNat) hc
  | ordinal m =>
    obtain ⟨rfl, rfl⟩ : (m : Int) = n ∧ ['o', 'r', 'd'] = t := by simpa [numeral?] using h
    have hnumber : toString (m : Int) = toString m := rfl
    exact ⟨by rw [hnumber]; simp [text], by simp [Text.IsNumeric], by simp [Text.IsPlain]⟩

private theorem numeral?_inj {p : Int × List Char} (ha : a.numeral? = some p)
    (hb : b.numeral? = some p) : a = b := by
  have h : a.numeral? = b.numeral? := ha.trans hb.symm
  cases a <;> cases b <;> simp only [numeral?, Option.some.injEq, Prod.mk.injEq, List.cons.injEq,
    Char.reduceEq, reduceCtorEq, and_true, and_false, false_and, Int.natCast_inj, true_and]
    at h ha hb
  case int.int => rw [h]
  case ordinal.ordinal => rw [h]
  case bitVector.bitVector =>
    obtain ⟨hmagnitude, hwidth⟩ := h
    have hwidth' := UInt32.toNat_inj.mp (Text.repr_inj (String.toList_inj.mp hwidth))
    rw [hmagnitude, hwidth']
  case real.real f g =>
    obtain ⟨hnum, hrest⟩ := h
    have hden : f.den = g.den := by
      by_cases hf : f.den = 1 <;> by_cases hg : g.den = 1
      · rw [hf, hg]
      · simp [hf, hg] at hrest
      · simp [hf, hg] at hrest
      · have hspelled : (toString f.den).toList = (toString g.den).toList := by
          simpa [hf, hg] using hrest
        exact Text.toString_inj (String.toList_inj.mp hspelled)
    obtain ⟨num, den, hne⟩ := f
    obtain ⟨num', den', hne'⟩ := g
    obtain rfl : num = num' := hnum
    obtain rfl : den = den' := hden
    rfl
  all_goals
    obtain ⟨-, hrest⟩ := h
    split at hrest <;> simp at hrest

private theorem eq_of_numeral?_eq_none (h : a.numeral? = none) :
    a = .unit ∨ (∃ t, a = .bool t) ∨ ∃ c, a = .char c := by
  cases a <;> simp_all [numeral?]

private theorem isSome_numeral?_iff :
    a.numeral?.isSome = true ↔ ∃ c, a.text.toList.head? = some c ∧ Text.IsNumeric c := by
  cases h : a.numeral? with
  | some p =>
    obtain ⟨n, t⟩ := p
    obtain ⟨c, hc, hnumeric⟩ := Text.head_toString n
    have hhead : a.text.toList.head? = some c := by
      rw [(text_of_numeral? h).1, List.head?_append, hc, Option.some_or]
    simp [hhead, hnumeric]
  | none =>
    rcases eq_of_numeral?_eq_none h with rfl | ⟨t, rfl⟩ | ⟨c, rfl⟩
    · simp [text, Text.IsNumeric]
    · cases t <;> simp [text, Text.IsNumeric]
    · simp [text, Text.head_quoted, Text.IsNumeric]

theorem isToken_text (h : a ≠ .unit) : Text.IsToken a.text := by
  cases hnumeral : a.numeral? with
  | some p =>
    obtain ⟨n, t⟩ := p
    obtain ⟨htext, -, hplain⟩ := text_of_numeral? hnumeral
    obtain ⟨c, hhead, -⟩ := isSome_numeral?_iff.mp (Option.isSome_iff_exists.mpr ⟨_, hnumeral⟩)
    apply Text.IsToken.word
    · intro hempty
      simp [hempty] at hhead
    · intro d hd
      rw [htext, List.mem_append] at hd
      rcases hd with hd | hd
      · exact (Text.isNumeric_of_mem_toString hd).isPlain
      · exact hplain d hd
  | none =>
    rcases eq_of_numeral?_eq_none hnumeral with rfl | ⟨t, rfl⟩ | ⟨c, rfl⟩
    · exact absurd rfl h
    · cases t <;> exact .of_all (by decide +kernel)
    · exact .quoted c

/-- A literal is known from its text. -/
theorem text_inj (h : a.text = b.text) : a = b := by
  have hkind : a.numeral?.isSome = b.numeral?.isSome := by
    rw [Bool.eq_iff_iff, isSome_numeral?_iff, isSome_numeral?_iff, h]
  cases ha : a.numeral? with
  | some p =>
    obtain ⟨q, hb⟩ : ∃ q, b.numeral? = some q := by
      rw [← Option.isSome_iff_exists, ← hkind, ha]
      rfl
    obtain ⟨n, t⟩ := p
    obtain ⟨m, u⟩ := q
    obtain ⟨htext, hafter, -⟩ := text_of_numeral? ha
    obtain ⟨htext', hafter', -⟩ := text_of_numeral? hb
    -- Both numbers are read up to the first character that is no part of a number.
    obtain ⟨hnumber, hrest⟩ := Text.append_inj_of_all (fun _ => Text.isNumeric_of_mem_toString)
      (fun _ => Text.isNumeric_of_mem_toString) hafter hafter' (by rw [← htext, ← htext', h])
    have hnm : n = m := Text.toString_inj (String.toList_inj.mp hnumber)
    exact numeral?_inj ha (by rw [hb, hnm, hrest])
  | none =>
    have hb : b.numeral? = none := by
      rw [← Option.isNone_iff_eq_none, ← Option.not_isSome, ← hkind, ha]
      rfl
    have hhead := congrArg (fun w : String => w.toList.head?) h
    rcases eq_of_numeral?_eq_none ha with rfl | ⟨t, rfl⟩ | ⟨c, rfl⟩ <;>
      rcases eq_of_numeral?_eq_none hb with rfl | ⟨t', rfl⟩ | ⟨c', rfl⟩
    · rfl
    · cases t' <;> simp [text] at hhead
    · simp [text, Text.head_quoted] at hhead
    · cases t <;> simp [text] at hhead
    · cases t <;> cases t' <;> simp_all [text]
    · cases t <;> simp [text, Text.head_quoted] at hhead
    · simp [text, Text.head_quoted] at hhead
    · cases t' <;> simp [text, Text.head_quoted] at hhead
    · have hquoted : (Text.quoted c).toList ++ [] = (Text.quoted c').toList ++ [] := by
        simpa [text] using congrArg String.toList h
      rw [(Text.quoted_append_inj hquoted).1]

theorem ne_text_of_isName {x : String} (hx : Text.IsName x) (a : Literal) : x ≠ a.text := by
  intro heq
  obtain ⟨c, hc, hhead⟩ := Text.exists_head hx.nonempty
  have hchar := hx.characters c hc
  have hnumber : a.numeral? = none := by
    rw [← Option.isNone_iff_eq_none, ← Option.not_isSome, Bool.not_eq_true', Bool.eq_false_iff,
      ne_eq, isSome_numeral?_iff, ← heq]
    rintro ⟨d, hd, hdigit | rfl⟩
    · simp [hx.no_digit_first d hd] at hdigit
    · obtain rfl : c = '-' := Option.some.inj (hhead.symm.trans hd)
      exact absurd hchar (by decide)
  rcases eq_of_numeral?_eq_none hnumber with rfl | ⟨t, rfl⟩ | ⟨d, rfl⟩
  · obtain rfl : '(' = c := by simpa [heq, text] using hhead
    exact absurd hchar (by decide)
  · cases t with
    | true => exact hx.not_true heq
    | false => exact hx.not_false heq
  · obtain rfl : '\x27' = c := by simpa [heq, text, Text.head_quoted] using hhead
    exact absurd hchar (by decide)

end Literal

end CheckedPass
