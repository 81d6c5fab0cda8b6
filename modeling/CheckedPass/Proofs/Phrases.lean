import CheckedPass.Expr.Text
import CheckedPass.Proofs.Children
import CheckedPass.Proofs.Spelling
import Mathlib.Data.List.Nodup
/-!
# Expressions are known from their text

The text of an expression is that of a phrase: a token, or phrases in parentheses with a space
between neighbours. A phrase can be read off the front of a longer text, because it is known where
each of its parts ends. A phrase in turn has one expression to it: the word that it opens with tells
the kind of node and the operator.
-/

namespace CheckedPass

/-- A text and its parts. -/
inductive Phrase where
  | word (w : String)
  | group (items : List Phrase)

namespace Phrase

mutual

def text : Phrase → String
  | .word w => w
  | .group items => "(" ++ Text.join " " (texts items) ++ ")"

def texts : List Phrase → List String
  | [] => []
  | p :: ps => p.text :: texts ps

end

/-- A name and what it stands for. -/
def binding (x : String) (v : Phrase) : Phrase :=
  .group [.word x, v]

/-- A phrase whose words are tokens. -/
inductive IsSound : Phrase → Prop
  | word {w : String} (hw : Text.IsToken w) : IsSound (.word w)
  | group {items : List Phrase} (hitems : ∀ p ∈ items, IsSound p) : IsSound (.group items)

variable {p q : Phrase} {ps qs : List Phrase} {r r' : List Char}

private theorem texts_eq_map (ps : List Phrase) : texts ps = ps.map text := by
  induction ps with
  | nil => rfl
  | cons p ps ih => rw [texts, ih, List.map_cons]

/-- Phrases with a space before each. -/
def spaced (ps : List Phrase) : List Char :=
  ps.flatMap fun p => ' ' :: p.text.toList

private theorem toList_join_cons (w : String) (ws : List String) :
    (Text.join " " (w :: ws)).toList = w.toList ++ ws.flatMap fun v => ' ' :: v.toList := by
  induction ws generalizing w with
  | nil => simp [Text.join]
  | cons v ws ih => simp [Text.join, ih]

private theorem toList_group_nil : (group []).text.toList = ['(', ')'] := by
  simp [text, texts, Text.join]

private theorem toList_group_cons (p : Phrase) (ps : List Phrase) :
    (group (p :: ps)).text.toList = '(' :: (p.text.toList ++ (spaced ps ++ [')'])) := by
  simp [text, texts, toList_join_cons, texts_eq_map, List.flatMap_map, spaced]

private theorem ended_spaced (ps : List Phrase) (r : List Char) :
    Text.Ended (spaced ps ++ ')' :: r) := by
  cases ps <;> simp [spaced, Text.Ended]

theorem IsSound.head (h : p.IsSound) : ∃ c, p.text.toList.head? = some c ∧ c ≠ ')' := by
  cases h with
  | word hw =>
    obtain ⟨c, hc, -, -, hclose⟩ := hw.head
    exact ⟨c, hc, hclose⟩
  | group => exact ⟨'(', by simp [text], by decide⟩

private theorem token_append_ne {w : String} (hw : Text.IsToken w) :
    w.toList ++ r ≠ (group ps).text.toList ++ r' := by
  obtain ⟨c, hhead, -, hopen, -⟩ := hw.head
  exact Text.append_ne_of_head hhead (by simp [text]) hopen

/-- `p` can be read off the front of a text, from whatever phrase that was written. -/
def ReadsOff (p : Phrase) : Prop :=
  ∀ {q : Phrase} {r r' : List Char}, q.IsSound → Text.Ended r → Text.Ended r' →
    p.text.toList ++ r = q.text.toList ++ r' → p = q ∧ r = r'

private theorem spaced_append_inj (hps : ∀ p ∈ ps, p.ReadsOff) (hqs : ∀ q ∈ qs, q.IsSound)
    (h : spaced ps ++ ')' :: r = spaced qs ++ ')' :: r') : ps = qs ∧ r = r' := by
  induction ps generalizing qs with
  | nil =>
    cases qs with
    | nil => exact ⟨rfl, (List.cons.inj h).2⟩
    | cons q qs => simp [spaced] at h
  | cons p ps ih =>
    cases qs with
    | nil => simp [spaced] at h
    | cons q qs =>
      obtain ⟨hp, hps⟩ := List.forall_mem_cons.mp hps
      obtain ⟨hq, hqs⟩ := List.forall_mem_cons.mp hqs
      have hfront : p.text.toList ++ (spaced ps ++ ')' :: r) =
          q.text.toList ++ (spaced qs ++ ')' :: r') := by simpa [spaced] using h
      obtain ⟨hpq, hrest⟩ := hp hq (ended_spaced ps r) (ended_spaced qs r') hfront
      obtain ⟨hpqs, hr⟩ := ih hps hqs hrest
      exact ⟨by rw [hpq, hpqs], hr⟩

private theorem group_nil_append_ne (hq : q.IsSound) :
    (group []).text.toList ++ r ≠ (group (q :: qs)).text.toList ++ r' := by
  intro h
  obtain ⟨c, hhead, hclose⟩ := hq.head
  have hafter : q.text.toList ++ (spaced qs ++ ')' :: r') = [')'] ++ r := by
    simpa [toList_group_nil, toList_group_cons] using h.symm
  exact Text.append_ne_of_head hhead rfl hclose hafter

private theorem group_append_inj (hps : ∀ p ∈ ps, p.IsSound) (hread : ∀ p ∈ ps, p.ReadsOff)
    (hqs : ∀ q ∈ qs, q.IsSound)
    (h : (group ps).text.toList ++ r = (group qs).text.toList ++ r') : ps = qs ∧ r = r' := by
  cases ps with
  | nil =>
    cases qs with
    | nil => exact ⟨rfl, List.append_cancel_left h⟩
    | cons q qs => exact absurd h (group_nil_append_ne (hqs q List.mem_cons_self))
  | cons p ps =>
    cases qs with
    | nil => exact absurd h.symm (group_nil_append_ne (hps p List.mem_cons_self))
    | cons q qs =>
      -- With a space before its first part, what is inside a group is evenly spaced.
      have hspaced : spaced (p :: ps) ++ ')' :: r = spaced (q :: qs) ++ ')' :: r' := by
        simpa [spaced, toList_group_cons] using h
      exact spaced_append_inj hread hqs hspaced

private theorem IsSound.readsOff (hp : p.IsSound) : p.ReadsOff := by
  induction hp with
  | word hw =>
    intro q r r' hq hr hr' h
    cases hq with
    | word hw' =>
      obtain ⟨hword, hrest⟩ := hw.append_inj hw' hr hr' h
      exact ⟨by rw [hword], hrest⟩
    | group => exact absurd h (token_append_ne hw)
  | group hitems ih =>
    intro q r r' hq hr hr' h
    cases hq with
    | word hw' => exact absurd h.symm (token_append_ne hw')
    | group hitems' =>
      obtain ⟨hpq, hrest⟩ := group_append_inj hitems ih hitems' h
      exact ⟨by rw [hpq], hrest⟩

/-- A phrase is known from its text. -/
theorem IsSound.text_inj (hp : p.IsSound) (hq : q.IsSound) (h : p.text = q.text) : p = q := by
  have hended : Text.Ended [] := by simp [Text.Ended]
  exact (hp.readsOff hq hended hended (by rw [h])).1

end Phrase

/-- The text of the unit has no word in it. -/
def Literal.phrase : Literal → Phrase
  | .unit => .group []
  | a => .word a.text

namespace Literal

variable {a b : Literal}

private theorem phrase_of_ne_unit (h : a ≠ .unit) : a.phrase = .word a.text := by
  cases a with
  | unit => exact absurd rfl h
  | _ => rfl

private theorem text_phrase (a : Literal) : a.phrase.text = a.text := by
  by_cases h : a = .unit
  · rw [h]
    rfl
  · rw [phrase_of_ne_unit h, Phrase.text]

private theorem phrase_inj (h : a.phrase = b.phrase) : a = b := by
  apply text_inj
  rw [← text_phrase, ← text_phrase, h]

private theorem eq_text_of_phrase {w : String} (h : a.phrase = .word w) : w = a.text := by
  rw [← text_phrase, h, Phrase.text]

private theorem phrase_ne_group_cons {p : Phrase} {ps : List Phrase} :
    a.phrase ≠ .group (p :: ps) := by
  cases a <;> simp [phrase]

private theorem isSound_phrase (a : Literal) : a.phrase.IsSound := by
  by_cases h : a = .unit
  · rw [h]
    exact .group (by simp)
  · rw [phrase_of_ne_unit h]
    exact .word (isToken_text h)

end Literal

namespace Operator

private theorem isToken_mnemonic (op : Operator) : Text.IsToken op.mnemonic := by
  have htable : ∀ op ∈ vocabulary,
      op.mnemonic ≠ "" ∧ op.mnemonic.toList.all (fun c => Text.IsPlain c) = true := by
    decide +kernel
  exact .of_all (htable op (mem_vocabulary op))

private theorem mnemonic_inj {op op' : Operator} (h : op.mnemonic = op'.mnemonic) : op = op' := by
  have hnodup : (vocabulary.map mnemonic).Nodup := by decide +kernel
  exact List.inj_on_of_nodup_map hnodup (mem_vocabulary op) (mem_vocabulary op') h

end Operator

namespace Expr

mutual

def phrase : Expr → Phrase
  | .var x => .word x
  | .lit a => a.phrase
  | .fn params body => .group [.word "fn", .group (params.map .word), body.phrase]
  | .app op args => .group (.word op.mnemonic :: phrases args)
  | .block items => .group (.word "block" :: phrases items)
  | .cond test yes no => .group [.word "if", test.phrase, yes.phrase, no.phrase]
  | .bind vars vals body =>
    .group [.word "let", .group (vars.zipWith .binding (phrases vals)), body.phrase]

def phrases : List Expr → List Phrase
  | [] => []
  | e :: es => e.phrase :: phrases es

end

variable {e e' : Expr}

private theorem phrases_eq_map (es : List Expr) : phrases es = es.map phrase := by
  induction es with
  | nil => rfl
  | cons e es ih => rw [phrases, ih, List.map_cons]

private theorem texts_binding (vars : List String) (ps : List Phrase) :
    Phrase.texts (vars.zipWith .binding ps) = bindingTexts vars (Phrase.texts ps) := by
  have hpair : ∀ x (v : Phrase), (Phrase.binding x v).text = "(" ++ x ++ " " ++ v.text ++ ")" := by
    intro x v
    simp [Phrase.binding, Phrase.text, Phrase.texts, Text.join, String.append_assoc]
  simp [Phrase.texts_eq_map, bindingTexts, List.map_zipWith, List.zipWith_map_right, hpair]

mutual

private theorem text_phrase : (e : Expr) → e.phrase.text = e.text
  | .var _ => rfl
  | .lit a => a.text_phrase
  | .fn params body => by
    have hparams : Phrase.texts (params.map .word) = params := by
      rw [Phrase.texts_eq_map, List.map_map]
      exact List.map_id _
    have hbody := text_phrase body
    -- The two are put together differently, of the same characters.
    apply String.toList_inj.mp
    simp [phrase, Phrase.text, Phrase.texts, hparams, hbody, text, Text.join]
  | .app op args => by
    simp [phrase, Phrase.text, Phrase.texts, texts_phrases args, text]
  | .block items => by
    simp [phrase, Phrase.text, Phrase.texts, texts_phrases items, text]
  | .cond test yes no => by
    have ht := text_phrase test
    have hy := text_phrase yes
    have hn := text_phrase no
    apply String.toList_inj.mp
    simp [phrase, Phrase.text, Phrase.texts, ht, hy, hn, text, Text.join]
  | .bind vars vals body => by
    have hbindings := texts_binding vars (phrases vals)
    rw [texts_phrases vals] at hbindings
    have hbody := text_phrase body
    apply String.toList_inj.mp
    simp [phrase, Phrase.text, Phrase.texts, hbindings, hbody, text, Text.join]

private theorem texts_phrases : (es : List Expr) → Phrase.texts (phrases es) = texts es
  | [] => rfl
  | e :: es => by rw [phrases, Phrase.texts, text_phrase e, texts_phrases es, texts]

end

/-- Names are spelled as names, and a binding has as many of them as values. -/
def IsLegibleNode : Expr → Prop
  | .var x => Text.IsName x
  | .fn params _ => ∀ x ∈ params, Text.IsName x
  | .bind vars vals _ => (∀ x ∈ vars, Text.IsName x) ∧ vars.length = vals.length
  | _ => True

def IsLegible (e : Expr) : Prop :=
  ∀ n ∈ e.nodes, n.IsLegibleNode

instance (e : Expr) : Decidable e.IsLegibleNode :=
  match e with
  | .var x => inferInstanceAs (Decidable (Text.IsName x))
  | .fn params _ => inferInstanceAs (Decidable (∀ x ∈ params, Text.IsName x))
  | .bind vars vals _ =>
    inferInstanceAs (Decidable ((∀ x ∈ vars, Text.IsName x) ∧ vars.length = vals.length))
  | .lit _ | .app _ _ | .block _ | .cond _ _ _ => .isTrue trivial

instance (e : Expr) : Decidable e.IsLegible :=
  inferInstanceAs (Decidable (∀ n ∈ e.nodes, n.IsLegibleNode))

theorem IsLegible.node (h : e.IsLegible) : e.IsLegibleNode :=
  h e (mem_nodes_self e)

theorem IsLegible.child {c : Expr} (h : e.IsLegible) (hc : c ∈ e.children) : c.IsLegible :=
  fun n hn => h n (mem_nodes_of_child hc hn)

/-- The words that open nodes without an operator. -/
def keywords : List String :=
  ["fn", "block", "if", "let"]

private theorem isToken_keyword {w : String} (hw : w ∈ keywords) : Text.IsToken w := by
  have htable : ∀ w ∈ keywords, w ≠ "" ∧ w.toList.all (fun c => Text.IsPlain c) = true := by
    decide +kernel
  exact .of_all (htable w hw)

private theorem mnemonic_not_mem_keywords (op : Operator) : op.mnemonic ∉ keywords := by
  have htable : ∀ op ∈ Operator.vocabulary, op.mnemonic ∉ keywords := by decide +kernel
  exact htable op (Operator.mem_vocabulary op)

private theorem isSound_bindings {xs : List String} {ps : List Phrase}
    (hxs : ∀ x ∈ xs, Text.IsName x) (hps : ∀ p ∈ ps, p.IsSound) :
    ∀ p ∈ xs.zipWith Phrase.binding ps, p.IsSound := by
  intro p hp
  rw [← List.map_uncurry_zip_eq_zipWith, List.mem_map] at hp
  obtain ⟨⟨x, v⟩, hxv, rfl⟩ := hp
  obtain ⟨hx, hv⟩ := List.of_mem_zip hxv
  have hword := Phrase.IsSound.word (hxs x hx).isToken
  have hvalue := hps v hv
  apply Phrase.IsSound.group
  simp [hword, hvalue]

private theorem isSound_phrase (h : e.IsLegible) : e.phrase.IsSound := by
  induction e using children_induction with
  | step e ih =>
    have hchild : ∀ c ∈ e.children, c.phrase.IsSound := fun c hc => ih c hc (h.child hc)
    have hkeyword : ∀ w ∈ keywords, (Phrase.word w).IsSound :=
      fun w hw => .word (isToken_keyword hw)
    have hnode := h.node
    clear ih h
    cases e with
    | var x => exact .word hnode.isToken
    | lit a => exact a.isSound_phrase
    | fn params body =>
      have hparams : (Phrase.group (params.map .word)).IsSound := by
        apply Phrase.IsSound.group
        intro p hp
        obtain ⟨x, hx, rfl⟩ := List.mem_map.mp hp
        exact .word (hnode x hx).isToken
      apply Phrase.IsSound.group
      simp_all [keywords, children]
    | app op args =>
      apply Phrase.IsSound.group
      have hop := Phrase.IsSound.word op.isToken_mnemonic
      simp_all [phrases_eq_map, children]
    | block items =>
      apply Phrase.IsSound.group
      simp_all [keywords, phrases_eq_map, children]
    | cond test yes no =>
      apply Phrase.IsSound.group
      simp_all [keywords, children]
    | bind vars vals body =>
      have hvals : ∀ p ∈ phrases vals, p.IsSound := by simp_all [phrases_eq_map, children]
      have hbindings := Phrase.IsSound.group (isSound_bindings hnode.1 hvals)
      apply Phrase.IsSound.group
      simp_all [keywords, children]

private theorem binding_inj {xs ys : List String} {ps qs : List Phrase} (hx : xs.length = ps.length)
    (hy : ys.length = qs.length) (h : xs.zipWith Phrase.binding ps = ys.zipWith Phrase.binding qs) :
    xs = ys ∧ ps = qs := by
  have hinj : Function.Injective (Function.uncurry Phrase.binding) := by
    intro ⟨x, v⟩ ⟨y, w⟩ hxy
    simpa [Phrase.binding] using hxy
  rw [← List.map_uncurry_zip_eq_zipWith, ← List.map_uncurry_zip_eq_zipWith] at h
  have hunzip := congrArg List.unzip (List.map_injective_iff.mpr hinj h)
  rw [List.unzip_zip hx, List.unzip_zip hy] at hunzip
  exact Prod.mk.inj hunzip

private theorem group_mnemonic_ne {op : Operator} {w : String} (hw : w ∈ keywords)
    {ps qs : List Phrase} : Phrase.group (.word op.mnemonic :: ps) ≠ .group (.word w :: qs) := by
  intro h
  have hsame : op.mnemonic = w := by simp_all
  exact mnemonic_not_mem_keywords op (hsame ▸ hw)

/-- The phrase tells the payload, and the phrases of the children in their order. -/
private theorem parts_of_phrase (h : e.IsLegibleNode) (h' : e'.IsLegibleNode)
    (heq : e.phrase = e'.phrase) :
    e.payload = e'.payload ∧ e.children.map phrase = e'.children.map phrase := by
  cases e with
  | var x =>
    cases e' with
    | var y => simpa [phrase, payload, children] using heq
    | lit b => exact absurd (Literal.eq_text_of_phrase heq.symm) (Literal.ne_text_of_isName h b)
    | _ => simp [phrase] at heq
  | lit a =>
    cases e' with
    | var y => exact absurd (Literal.eq_text_of_phrase heq) (Literal.ne_text_of_isName h' a)
    | lit b =>
      obtain rfl : a = b := Literal.phrase_inj heq
      exact ⟨rfl, rfl⟩
    | _ => exact absurd heq Literal.phrase_ne_group_cons
  | fn params body =>
    cases e' with
    | fn params' body' =>
      have hword : Function.Injective Phrase.word := fun _ _ => Phrase.word.inj
      have hparts : params.map Phrase.word = params'.map .word ∧ body.phrase = body'.phrase := by
        simpa [phrase] using heq
      have hparams := List.map_injective_iff.mpr hword hparts.1
      simp [payload, children, hparams, hparts.2]
    | lit b => exact absurd heq.symm Literal.phrase_ne_group_cons
    | app op args => exact absurd heq.symm (group_mnemonic_ne (by decide))
    | _ => simp [phrase] at heq
  | app op args =>
    cases e' with
    | var y => simp [phrase] at heq
    | lit b => exact absurd heq.symm Literal.phrase_ne_group_cons
    | app op' args' =>
      have hparts : op.mnemonic = op'.mnemonic ∧ phrases args = phrases args' := by
        simpa [phrase] using heq
      have hop := Operator.mnemonic_inj hparts.1
      simpa [payload, children, hop, phrases_eq_map] using hparts.2
    | _ => exact absurd heq (group_mnemonic_ne (by decide))
  | block items =>
    cases e' with
    | lit b => exact absurd heq.symm Literal.phrase_ne_group_cons
    | app op args => exact absurd heq.symm (group_mnemonic_ne (by decide))
    | block items' => simpa [phrase, payload, children, phrases_eq_map] using heq
    | _ => simp [phrase] at heq
  | cond test yes no =>
    cases e' with
    | lit b => exact absurd heq.symm Literal.phrase_ne_group_cons
    | app op args => exact absurd heq.symm (group_mnemonic_ne (by decide))
    | cond test' yes' no' => simpa [phrase, payload, children] using heq
    | _ => simp [phrase] at heq
  | bind vars vals body =>
    cases e' with
    | lit b => exact absurd heq.symm Literal.phrase_ne_group_cons
    | app op args => exact absurd heq.symm (group_mnemonic_ne (by decide))
    | bind vars' vals' body' =>
      simp only [phrase, Phrase.group.injEq, List.cons.injEq, and_true, true_and,
        phrases_eq_map] at heq
      obtain ⟨hvars, hvals⟩ := binding_inj (by simpa using h.2) (by simpa using h'.2) heq.1
      simp [payload, children, hvars, hvals, heq.2]
    | _ => simp [phrase] at heq

private theorem phrase_inj (h : e.IsLegible) (h' : e'.IsLegible) (heq : e.phrase = e'.phrase) :
    e = e' := by
  induction e using children_induction generalizing e' with
  | step e ih =>
    obtain ⟨hpayload, hchildren⟩ := parts_of_phrase h.node h'.node heq
    apply eq_of_payload_of_children hpayload
    apply List.ext_getElem (by simpa using congrArg List.length hchildren)
    intro i hi hi'
    apply ih _ (List.getElem_mem hi) (h.child (List.getElem_mem hi))
      (h'.child (List.getElem_mem hi'))
    simpa [hi, hi'] using congrArg (fun ps : List Phrase => ps[i]?) hchildren

end Expr

/-- Two legible expressions with the same text are the same expression. Fractions need not be in
lowest terms for it, since a text shows them as they are. -/
theorem text_determines_expression {e e' : Expr} (h : e.IsLegible) (h' : e'.IsLegible)
    (heq : e.text = e'.text) : e = e' := by
  apply Expr.phrase_inj h h'
  apply Phrase.IsSound.text_inj (Expr.isSound_phrase h) (Expr.isSound_phrase h')
  rw [Expr.text_phrase, Expr.text_phrase, heq]

/-- A space and a parenthesis in quotes, and a unit, which is an empty pair of parentheses. -/
theorem text_determines_expression_quotes :
    let e := Expr.block [.fn ["x"] (.lit (.char ' ')), .fn ["x"] (.lit (.char ')')),
      .fn ["x"] (.lit .unit)]
    let e' := (Expr.block [.lit (.char ' '), .lit (.char ')'), .lit .unit]).mapChildren
      fun c => .fn ["x"] c
    e.IsLegible ∧ e'.IsLegible ∧ e.text = "(block (fn (x) ' ') (fn (x) ')') (fn (x) ()))" ∧
      e.text = e'.text ∧ e = e' := by
  intro e e'
  have h : e.IsLegible := by decide +kernel
  have h' : e'.IsLegible := by decide +kernel
  have heq : e.text = e'.text := by decide +kernel
  exact ⟨h, h', by decide +kernel, heq, text_determines_expression h h' heq⟩

end CheckedPass
