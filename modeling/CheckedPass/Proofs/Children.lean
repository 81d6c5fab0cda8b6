import CheckedPass.Proofs.Tree
/-!
# A node is its payload and its children

What a node holds besides its children is its payload. The two make up the node, and the children
can be replaced under a payload that stays. To replace them one by one, with whatever effects on the
way, is to go through them in the order in which they are listed and to replace them all at the end.
-/

namespace CheckedPass

/-- What a node holds besides its children. -/
inductive Payload where
  | var (name : String)
  | lit (value : Literal)
  | fn (params : List String)
  | app (op : Operator)
  | block
  | cond
  | bind (vars : List String)
  deriving DecidableEq

namespace Expr

def payload : Expr → Payload
  | .var x => .var x
  | .lit a => .lit a
  | .fn params _ => .fn params
  | .app op _ => .app op
  | .block _ => .block
  | .cond _ _ _ => .cond
  | .bind vars _ _ => .bind vars

variable {e e' : Expr} {cs ds : List Expr}

private theorem shape_eq_of_payload (h : e.payload = e'.payload) : e.shape = e'.shape := by
  cases e <;> cases e' <;> simp_all [payload, shape]

theorem eq_of_payload_of_children (hp : e.payload = e'.payload) (hc : e.children = e'.children) :
    e = e' := by
  cases e <;> cases e' <;> simp_all [payload, children]

private theorem exists_replaceChildren (h : cs.length = e.children.length) :
    ∃ e', e.replaceChildren cs = .ok e' ∧ e'.payload = e.payload ∧ e'.children = cs := by
  cases e with
  | var x =>
    obtain rfl := List.length_eq_zero_iff.mp h
    exact ⟨.var x, rfl, rfl, rfl⟩
  | lit a =>
    obtain rfl := List.length_eq_zero_iff.mp h
    exact ⟨.lit a, rfl, rfl, rfl⟩
  | fn params body =>
    obtain ⟨c, rfl⟩ := List.length_eq_one_iff.mp h
    exact ⟨.fn params c, rfl, rfl, rfl⟩
  | app op args => exact ⟨.app op cs, if_pos h, rfl, rfl⟩
  | block items => exact ⟨.block cs, if_pos h, rfl, rfl⟩
  | cond test yes no =>
    obtain ⟨a, b, c, rfl⟩ := List.length_eq_three.mp h
    exact ⟨.cond a b c, rfl, rfl, rfl⟩
  | bind vars vals body =>
    have hlen : cs.length = vals.length + 1 := by simpa [children] using h
    have hne : cs ≠ [] := List.ne_nil_of_length_eq_add_one hlen
    have hsplit : cs.dropLast ++ [cs.getLast hne] = cs := List.dropLast_append_getLast hne
    refine ⟨.bind vars cs.dropLast (cs.getLast hne), ?_, rfl, hsplit⟩
    simp [replaceChildren, List.getLast?_eq_some_getLast hne, hlen]

private theorem replaceChildren_eq_error (h : cs.length ≠ e.children.length) :
    e.replaceChildren cs = .error ⟨e.shape, e.children.length⟩ := by
  unfold replaceChildren
  split <;> simp_all [children, shape]
  split <;> simp_all

private theorem replaceChildren_eq_error_iff {c : ChildCount} : e.replaceChildren cs = .error c ↔
    cs.length ≠ e.children.length ∧ c = ⟨e.shape, e.children.length⟩ := by
  by_cases h : cs.length = e.children.length
  · obtain ⟨e', he', -⟩ := exists_replaceChildren h
    simp [he', h]
  · simp [replaceChildren_eq_error h, h, eq_comm]

private theorem replaceChildren_congr (hp : e.payload = e'.payload)
    (hl : e.children.length = e'.children.length) :
    e.replaceChildren ds = e'.replaceChildren ds := by
  by_cases h : ds.length = e.children.length
  · obtain ⟨o, ho, hop, hoc⟩ := exists_replaceChildren h
    obtain ⟨o', ho', hop', hoc'⟩ := exists_replaceChildren (h.trans hl)
    have hsame : o = o' := by
      apply eq_of_payload_of_children
      · rw [hop, hop', hp]
      · rw [hoc, hoc']
    rw [ho, ho', hsame]
  · rw [replaceChildren_eq_error h, replaceChildren_eq_error (hl ▸ h), hl, shape_eq_of_payload hp]

private theorem replaceChildren_children (e : Expr) : e.replaceChildren e.children = .ok e := by
  have h := replaceChildren_map id e
  rwa [List.map_id, mapChildren_id] at h

section Monadic

variable {m : Type → Type} [Monad m] [LawfulMonad m] (f : Expr → m Expr)

private theorem bind_mapM_congr {α : Type} {es : List Expr} {g h : List Expr → m α}
    (hgh : ∀ cs, cs.length = es.length → g cs = h cs) : es.mapM f >>= g = es.mapM f >>= h := by
  induction es generalizing g h with
  | nil => simp [hgh [] rfl]
  | cons e es ih =>
    simp only [List.mapM_cons, bind_assoc, pure_bind]
    apply bind_congr
    intro c
    apply ih
    intro cs hcs
    exact hgh (c :: cs) (by simp [hcs])

/-- The children are asked for from the first to the last, and then put in place all at once. -/
private theorem mapChildrenM_eq (e : Expr) :
    Except.ok <$> e.mapChildrenM f = e.replaceChildren <$> e.children.mapM f := by
  rw [map_eq_pure_bind e.replaceChildren]
  cases e with
  | var x => simp [mapChildrenM, children, replaceChildren]
  | lit a => simp [mapChildrenM, children, replaceChildren]
  | fn params body => simp [mapChildrenM, children, replaceChildren]
  | app op args =>
    have hfits : ∀ cs, cs.length = args.length →
        replaceChildren (.app op args) cs = .ok (.app op cs) := fun cs hcs => if_pos hcs
    rw [children, bind_mapM_congr f fun cs hcs => congrArg pure (hfits cs hcs)]
    simp [mapChildrenM]
  | block items =>
    have hfits : ∀ cs, cs.length = items.length →
        replaceChildren (.block items) cs = .ok (.block cs) := fun cs hcs => if_pos hcs
    rw [children, bind_mapM_congr f fun cs hcs => congrArg pure (hfits cs hcs)]
    simp [mapChildrenM]
  | cond test yes no => simp [mapChildrenM, children, replaceChildren]
  | bind vars vals body =>
    have hfits : ∀ us c, us.length = vals.length →
        replaceChildren (.bind vars vals body) (us ++ [c]) = .ok (.bind vars us c) := by
      intro us c hus
      simp [replaceChildren, hus]
    simp only [mapChildrenM, children, List.mapM_append, map_bind, bind_assoc, pure_bind]
    apply bind_mapM_congr
    intro us hus
    simp [hfits us _ hus]

end Monadic

/-- Replaces by `f` and takes down what it is used on. -/
def noted (f : Expr → Expr) (c : Expr) : StateM (List Expr) Expr := do
  modify (· ++ [c])
  return f c

private theorem run_mapM_noted (f : Expr → Expr) (es notes : List Expr) :
    (es.mapM (noted f)).run notes = pure (es.map f, notes ++ es) := by
  induction es generalizing notes with
  | nil => simp
  | cons e es ih =>
    have hfirst : (noted f e).run notes = pure (f e, notes ++ [e]) := rfl
    simp [List.mapM_cons, hfirst, ih]

/-- Hands out the next child of a stock, whatever it is to replace. -/
def handedOut (_ : Expr) : StateT (List Expr) Option Expr :=
  fun stock => stock.head?.map fun c => (c, stock.tail)

private theorem run_mapM_handedOut (es stock : List Expr) :
    (es.mapM handedOut).run stock =
      if es.length ≤ stock.length then some (stock.take es.length, stock.drop es.length)
      else none := by
  induction es generalizing stock with
  | nil => simp
  | cons e es ih =>
    cases stock with
    | nil =>
      have hfirst : (handedOut e).run [] = none := rfl
      simp [List.mapM_cons, hfirst]
    | cons c stock =>
      have hfirst : (handedOut e).run (c :: stock) = some (c, stock) := rfl
      by_cases h : es.length ≤ stock.length
      · simp [List.mapM_cons, hfirst, ih, h]
      · simp [List.mapM_cons, hfirst, ih, h]

/-- The node over other children is what comes of handing them out as the node asks for them, if
there are neither too few nor too many. -/
private theorem run_mapChildrenM_handedOut :
    (e.mapChildrenM handedOut).run cs = some (e', []) ↔ e.replaceChildren cs = .ok e' := by
  have hlaw : (fun r => (Except.ok r.1, r.2)) <$> (e.mapChildrenM handedOut).run cs =
      (fun r => (e.replaceChildren r.1, r.2)) <$> (e.children.mapM handedOut).run cs := by
    simpa only [StateT.run_map] using congrArg (StateT.run · cs) (mapChildrenM_eq handedOut e)
  rw [run_mapM_handedOut] at hlaw
  constructor
  · intro h
    rw [h] at hlaw
    by_cases hle : e.children.length ≤ cs.length
    · have hparts : .ok e' = e.replaceChildren (cs.take e.children.length) ∧
          cs.length ≤ e.children.length := by simpa [hle] using hlaw
      rw [hparts.1, List.take_of_length_le hparts.2]
    · simp [hle] at hlaw
  · intro h
    have hlen : cs.length = e.children.length := by
      by_contra hne
      rw [replaceChildren_eq_error hne] at h
      cases h
    rw [← hlen, if_pos (Nat.le_refl _), List.take_length, List.drop_length, Option.map_eq_map,
      Option.map_eq_map, Option.map_some, h] at hlaw
    obtain ⟨r, hr, heq⟩ := Option.map_eq_some_iff.mp hlaw
    obtain ⟨hnode, hrest⟩ := Prod.mk.inj heq
    rw [hr]
    exact congrArg some (Prod.ext (Except.ok.inj hnode) hrest)

private theorem run_mapChildrenM_noted (f : Expr → Expr) (e : Expr) :
    (e.mapChildrenM (noted f)).run [] = pure (e.mapChildren f, e.children) := by
  have hlaw : (fun r => (Except.ok r.1, r.2)) <$> (e.mapChildrenM (noted f)).run [] =
      (fun r => (e.replaceChildren r.1, r.2)) <$> (e.children.mapM (noted f)).run [] := by
    simpa only [StateT.run_map] using congrArg (StateT.run · []) (mapChildrenM_eq (noted f) e)
  rw [run_mapM_noted, map_pure, replaceChildren_map, List.nil_append] at hlaw
  obtain ⟨hnode, hnotes⟩ := Prod.mk.inj hlaw
  exact Prod.ext (Except.ok.inj hnode) hnotes

end Expr

/-- A node is lawfully taken apart into its payload and its children. Other children are refused
exactly if their number is another. Else they take the place of the old ones under the same payload,
and no trace is left of those: they may be replaced again. The node's own children give the node
back. To replace each child by its image is to replace the children by the list of images, in every
monad, so the images are asked for in the order in which the children are listed. Handing out
children in that order is another way to replace them all. -/
theorem replacing_children_obeys_laws (e : Expr) :
    (∀ cs c, e.replaceChildren cs = .error c ↔
      cs.length ≠ e.children.length ∧ c = ⟨e.shape, e.children.length⟩) ∧
    (∀ cs, cs.length = e.children.length → ∃ e', e.replaceChildren cs = .ok e' ∧
      e'.children = cs ∧ e'.alike e = true ∧ e'.payload = e.payload ∧
      ∀ ds, e'.replaceChildren ds = e.replaceChildren ds) ∧
    e.replaceChildren e.children = .ok e ∧
    (∀ f, e.replaceChildren (e.children.map f) = .ok (e.mapChildren f)) ∧
    (∀ f, (e.mapChildrenM (Expr.noted f)).run [] = (e.mapChildren f, e.children)) ∧
    (∀ (m : Type → Type) [Monad m] [LawfulMonad m] (f : Expr → m Expr),
      Except.ok <$> e.mapChildrenM f = e.replaceChildren <$> e.children.mapM f) ∧
    ∀ cs e', (e.mapChildrenM Expr.handedOut).run cs = some (e', []) ↔
      e.replaceChildren cs = .ok e' := by
  refine ⟨fun _ _ => Expr.replaceChildren_eq_error_iff, ?_, e.replaceChildren_children,
    fun f => e.replaceChildren_map f, fun f => e.run_mapChildrenM_noted f,
    fun _ _ _ f => Expr.mapChildrenM_eq f e, fun _ _ => Expr.run_mapChildrenM_handedOut⟩
  intro cs hcs
  obtain ⟨e', hok, hpayload, hchildren⟩ := Expr.exists_replaceChildren hcs
  refine ⟨e', hok, hchildren, ?_, hpayload, ?_⟩
  · simp [Expr.alike, Expr.shape_eq_of_payload hpayload]
  · intro ds
    apply Expr.replaceChildren_congr hpayload
    rw [hchildren, hcs]

/-- A binding of two names, whose values and body are listed as one. -/
theorem replacing_children_obeys_laws_binding :
    let e : Expr := .bind ["x", "y"] [.int 1, .int 2] (.var "x")
    let cs : List Expr := [.int 3, .var "z", .var "y"]
    cs.length = e.children.length ∧
      (∃ e', e.replaceChildren cs = .ok e' ∧ e'.children = cs ∧ e'.payload = .bind ["x", "y"]) ∧
      Except.ok <$> e.mapChildrenM (fun c => [c, .unit]) =
        e.replaceChildren <$> e.children.mapM fun c => [c, .unit] := by
  intro e cs
  have hlen : cs.length = e.children.length := rfl
  obtain ⟨-, hreplace, -, -, -, hmonad, -⟩ := replacing_children_obeys_laws e
  obtain ⟨e', hok, hchildren, -, hpayload, -⟩ := hreplace cs hlen
  exact ⟨hlen, ⟨e', hok, hchildren, hpayload⟩, hmonad List _⟩

end CheckedPass
