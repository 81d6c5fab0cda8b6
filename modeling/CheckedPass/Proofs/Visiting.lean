import CheckedPass.Proofs.Tree
import Mathlib.Data.List.Basic
/-!
# A visit as a pruned and cut pre-order

Equal trees may occur in several places of one tree, and a visitor may treat them differently. So
steps are assigned to places, a place being the way there from the root. A visit whose visitor gives
the steps of such an assignment goes through the tree in pre-order without what lies below skipped
places, up to the first place where it is to stop. Each visit is of that kind, for the assignment
that its visitor makes on the way.
-/

namespace CheckedPass

/-- The way from the root to a place in a tree: which child is taken, step by step. -/
abbrev Path := List Nat

namespace Step

variable {β : Type}

def isSkip : Step β → Bool
  | .skip => true
  | _ => false

/-- The result to stop with. -/
def result? : Step β → Option β
  | .stop b => some b
  | _ => none

end Step

namespace Expr

/-- The places of a child, as seen from its parent. -/
def under (i : Nat) (ns : List (Path × Expr)) : List (Path × Expr) :=
  ns.map fun n => (i :: n.1, n.2)

mutual

/-- The tree in pre-order, each node with its place. -/
def located : Expr → List (Path × Expr)
  | .var x => [([], .var x)]
  | .lit a => [([], .lit a)]
  | .fn params body => ([], .fn params body) :: under 0 (located body)
  | .app op args => ([], .app op args) :: locatedFrom 0 args
  | .block items => ([], .block items) :: locatedFrom 0 items
  | .cond test yes no => ([], .cond test yes no) ::
    (under 0 (located test) ++ under 1 (located yes) ++ under 2 (located no))
  | .bind vars vals body => ([], .bind vars vals body) ::
    (locatedFrom 0 vals ++ under vals.length (located body))

def locatedFrom (i : Nat) : List Expr → List (Path × Expr)
  | [] => []
  | e :: es => under i (located e) ++ locatedFrom (i + 1) es

end

private theorem locatedFrom_eq_flatMap (i : Nat) (es : List Expr) :
    locatedFrom i es = (es.zipIdx i).flatMap fun c => under c.2 (located c.1) := by
  induction es generalizing i with
  | nil => rfl
  | cons e es ih => rw [locatedFrom, ih, List.zipIdx_cons, List.flatMap_cons]

private theorem located_eq (e : Expr) :
    e.located = ([], e) :: e.children.zipIdx.flatMap fun c => under c.2 (located c.1) := by
  cases e <;> simp [located, children, locatedFrom_eq_flatMap, List.zipIdx_append]

private theorem map_snd_located (e : Expr) : e.located.map Prod.snd = e.nodes := by
  induction e using children_induction with
  | step e ih =>
    have hchild : ∀ c ∈ e.children.zipIdx,
        (under c.2 (located c.1)).map Prod.snd = c.1.nodes := by
      intro c hc
      have hmem : c.1 ∈ e.children := List.fst_mem_of_mem_zipIdx hc
      simpa [under, Function.comp_def] using ih c.1 hmem
    rw [located_eq, nodes_eq, List.map_cons, List.map_flatMap, List.flatMap_congr hchild,
      ← List.flatMap_map Prod.fst, List.zipIdx_map_fst]

section Assignment

variable {β : Type} (d : Path → Step β)

/-- A place above this one is to be skipped. -/
def belowSkip (p : Path) : Bool :=
  (List.range p.length).any fun k => (d (p.take k)).isSkip

private theorem belowSkip_cons (i : Nat) (p : Path) :
    belowSkip d (i :: p) = ((d []).isSkip || belowSkip (fun q => d (i :: q)) p) := by
  simp [belowSkip, List.range_succ_eq_map, Function.comp_def]

/-- The nodes whose place is not below a skipped one, each with its step. -/
def keep (ns : List (Path × Expr)) : List (Expr × Step β) :=
  (ns.filter fun n => !belowSkip d n.1).map fun n => (n.2, d n.1)

/-- The tree in pre-order without what lies below skipped places. -/
def pruned (e : Expr) : List (Expr × Step β) :=
  keep d e.located

private theorem keep_under (h : (d []).isSkip = false) (i : Nat) (ns : List (Path × Expr)) :
    keep d (under i ns) = keep (fun p => d (i :: p)) ns := by
  simp [keep, under, List.filter_map, belowSkip_cons, h, Function.comp_def]

private theorem keep_under_of_isSkip (h : (d []).isSkip = true) (i : Nat)
    (ns : List (Path × Expr)) : keep d (under i ns) = [] := by
  simp [keep, under, List.filter_map, belowSkip_cons, h, Function.comp_def]

private theorem pruned_eq (e : Expr) :
    pruned d e = (e, d []) :: if (d []).isSkip then [] else
      e.children.zipIdx.flatMap fun c => pruned (fun p => d (c.2 :: p)) c.1 := by
  have hroot : keep d e.located = (e, d []) ::
      e.children.zipIdx.flatMap fun c => keep d (under c.2 c.1.located) := by
    rw [located_eq]
    simp [keep, belowSkip, List.filter_flatMap, List.map_flatMap]
  rw [pruned, hroot]
  cases h : (d []).isSkip with
  | true => simp [keep_under_of_isSkip d h]
  | false => simp [keep_under d h, pruned]

end Assignment

section Cut

variable {β : Type}

/-- All up to and including the first step that stops. -/
def cut (t : List (Expr × Step β)) : List (Expr × Step β) :=
  t.take (t.findIdx (fun n => n.2.result?.isSome) + 1)

/-- What the first step that stops results in. -/
def firstResult? (t : List (Expr × Step β)) : Option β :=
  t.findSome? fun n => n.2.result?

private theorem cut_cons (n : Expr × Step β) (t : List (Expr × Step β)) :
    cut (n :: t) = n :: if n.2.result?.isSome then [] else cut t := by
  rw [cut, List.findIdx_cons]
  cases n.2.result?.isSome <;> simp [cut]

private theorem firstResult?_append (t u : List (Expr × Step β)) :
    firstResult? (t ++ u) = (firstResult? t).or (firstResult? u) :=
  List.findSome?_append

private theorem cut_append_of_stops {t : List (Expr × Step β)} (u : List (Expr × Step β))
    (h : (firstResult? t).isSome) : cut (t ++ u) = cut t := by
  induction t with
  | nil => simp [firstResult?] at h
  | cons n t ih =>
    rw [List.cons_append, cut_cons, cut_cons]
    cases hn : n.2.result? with
    | some b => rfl
    | none =>
      have ht : (firstResult? t).isSome := by simpa [firstResult?, hn] using h
      rw [ih ht]

private theorem cut_append_of_goes_on {t : List (Expr × Step β)} (u : List (Expr × Step β))
    (h : firstResult? t = none) : cut (t ++ u) = t ++ cut u := by
  induction t with
  | nil => rfl
  | cons n t ih =>
    obtain ⟨hn, ht⟩ : n.2.result? = none ∧ firstResult? t = none := by
      simpa [firstResult?] using h
    rw [List.cons_append, cut_cons, hn]
    simp [ih ht]

private theorem cut_eq_self {t : List (Expr × Step β)} (h : firstResult? t = none) : cut t = t := by
  simpa [cut] using cut_append_of_goes_on [] h

end Cut

section Visits

variable {σ β : Type} {visitor : σ → Expr → σ × Step β}

private theorem andThen_visitList_nil (r : Visited σ β) : r.andThen (visitList visitor []) = r := by
  obtain ⟨s, _ | b⟩ := r <;> rfl

private theorem visitList_append (es fs : List Expr) (s : σ) :
    visitList visitor (es ++ fs) s = (visitList visitor es s).andThen (visitList visitor fs) := by
  induction es generalizing s with
  | nil => rfl
  | cons e es ih =>
    rw [List.cons_append, visitList, visitList]
    obtain ⟨s₁, _ | b⟩ := visit visitor e s
    · exact ih s₁
    · rfl

private theorem visitList_cons (e : Expr) (es : List Expr) : visitList visitor (e :: es) =
    fun s => (e.visit visitor s).andThen (visitList visitor es) := by
  funext s
  rw [visitList]

private theorem visitList_singleton (e : Expr) : visitList visitor [e] = e.visit visitor := by
  funext s
  exact andThen_visitList_nil _

private theorem visit_of_descend {e : Expr} {s s₁ : σ} (h : visitor s e = (s₁, .descend)) :
    e.visit visitor s = visitList visitor e.children s₁ := by
  rw [visit, h]
  cases e with
  | var x => rfl
  | lit a => rfl
  | fn params body => rw [children, visitList_singleton]
  | app op args => rfl
  | block items => rfl
  | cond test yes no => rw [children, visitList_cons, visitList_cons, visitList_singleton]
  | bind vars vals body => rw [children, visitList_append, visitList_singleton]

/-- From `s` on, the visitor gives these nodes these steps, one after the other, and ends up in
`s'`. -/
def Follows (visitor : σ → Expr → σ × Step β) : σ → List (Expr × Step β) → σ → Prop
  | s, [], s' => s = s'
  | s, (n, a) :: t, s' => ∃ s₁, visitor s n = (s₁, a) ∧ Follows visitor s₁ t s'

private theorem follows_append {s s' : σ} {t u : List (Expr × Step β)} :
    Follows visitor s (t ++ u) s' ↔
      ∃ s₁, Follows visitor s t s₁ ∧ Follows visitor s₁ u s' := by
  induction t generalizing s with
  | nil => simp [Follows]
  | cons n t ih =>
    obtain ⟨n, a⟩ := n
    simp only [List.cons_append, Follows, ih]
    constructor
    · intro h
      obtain ⟨s₁, hn, s₂, ht, hu⟩ := h
      exact ⟨s₂, ⟨s₁, hn, ht⟩, hu⟩
    · intro h
      obtain ⟨s₂, ⟨s₁, hn, ht⟩, hu⟩ := h
      exact ⟨s₁, hn, s₂, ht, hu⟩

/-- Visits of this tree are as pruned and cut as their visitor's steps say. -/
def Obeyed (visitor : σ → Expr → σ × Step β) (e : Expr) : Prop :=
  ∀ d s s', Follows visitor s (cut (pruned d e)) s' →
    e.visit visitor s = (s', firstResult? (pruned d e))

private theorem visitList_of_follows {es : List Expr} (ih : ∀ c ∈ es, Obeyed visitor c)
    (ds : Nat → Path → Step β) {k : Nat} {s s' : σ}
    (h : Follows visitor s (cut ((es.zipIdx k).flatMap fun c => pruned (ds c.2) c.1)) s') :
    visitList visitor es s =
      (s', firstResult? ((es.zipIdx k).flatMap fun c => pruned (ds c.2) c.1)) := by
  induction es generalizing k s with
  | nil =>
    obtain rfl : s = s' := h
    rfl
  | cons e es ihes =>
    obtain ⟨he, hes⟩ := List.forall_mem_cons.mp ih
    rw [List.zipIdx_cons, List.flatMap_cons] at h ⊢
    rw [visitList, firstResult?_append]
    cases hresult : firstResult? (pruned (ds k) e) with
    | some b =>
      rw [cut_append_of_stops _ (by simp [hresult])] at h
      rw [he (ds k) s s' h, hresult]
      rfl
    | none =>
      rw [cut_append_of_goes_on _ hresult, follows_append] at h
      obtain ⟨s₁, hfirst, hrest⟩ := h
      rw [← cut_eq_self hresult] at hfirst
      rw [he (ds k) s s₁ hfirst, hresult]
      exact ihes hes hrest

private theorem obeyed (e : Expr) : Obeyed visitor e := by
  induction e using children_induction with
  | step e ih =>
    intro d s s' h
    rw [pruned_eq, cut_cons] at h
    obtain ⟨s₁, hroot, hrest⟩ := h
    rw [pruned_eq]
    cases hd : d [] with
    | stop b =>
      rw [hd] at hroot hrest
      obtain rfl : s₁ = s' := hrest
      rw [visit, hroot]
      rfl
    | skip =>
      rw [hd] at hroot hrest
      obtain rfl : s₁ = s' := hrest
      rw [visit, hroot]
      rfl
    | descend =>
      rw [hd] at hroot hrest
      rw [visit_of_descend hroot]
      exact visitList_of_follows ih (fun i p => d (i :: p)) hrest

private theorem exists_followsList {es : List Expr}
    (ih : ∀ c ∈ es, ∀ s, ∃ d s', Follows visitor s (cut (pruned d c)) s') (k : Nat) (s : σ) :
    ∃ ds : Nat → Path → Step β, ∃ s',
      Follows visitor s (cut ((es.zipIdx k).flatMap fun c => pruned (ds c.2) c.1)) s' := by
  induction es generalizing k s with
  | nil => exact ⟨fun _ _ => .descend, s, rfl⟩
  | cons e es ihes =>
    obtain ⟨he, hes⟩ := List.forall_mem_cons.mp ih
    obtain ⟨d, s₁, hfirst⟩ := he s
    cases hresult : firstResult? (pruned d e) with
    | some b =>
      refine ⟨fun _ => d, s₁, ?_⟩
      rw [List.zipIdx_cons, List.flatMap_cons, cut_append_of_stops _ (by simp [hresult])]
      exact hfirst
    | none =>
      obtain ⟨ds, s', hrest⟩ := ihes hes (k + 1) s₁
      -- The first child's places begin with `k`, those of the others with later numbers.
      have hothers : ∀ c ∈ es.zipIdx (k + 1),
          pruned (Function.update ds k d c.2) c.1 = pruned (ds c.2) c.1 := by
        intro c hc
        have hne : c.2 ≠ k := Nat.ne_of_gt (List.le_snd_of_mem_zipIdx hc)
        rw [Function.update_of_ne hne]
      refine ⟨Function.update ds k d, s', ?_⟩
      rw [List.zipIdx_cons, List.flatMap_cons, List.flatMap_congr hothers, Function.update_self,
        cut_append_of_goes_on _ hresult, follows_append]
      rw [cut_eq_self hresult] at hfirst
      exact ⟨s₁, hfirst, hrest⟩

/-- One step at the root, and others below each child. -/
def assign (a : Step β) (ds : Nat → Path → Step β) : Path → Step β
  | [] => a
  | i :: p => ds i p

private theorem exists_follows (visitor : σ → Expr → σ × Step β) (e : Expr) (s : σ) :
    ∃ d s', Follows visitor s (cut (pruned d e)) s' := by
  induction e using children_induction generalizing s with
  | step e ih =>
    obtain ⟨s₁, a, hroot⟩ : ∃ s₁ a, visitor s e = (s₁, a) := ⟨_, _, rfl⟩
    obtain ⟨ds, s', hrest⟩ := exists_followsList ih 0 s₁
    cases a with
    | stop b =>
      refine ⟨assign (.stop b) ds, s₁, ?_⟩
      rw [pruned_eq, cut_cons]
      exact ⟨s₁, hroot, rfl⟩
    | skip =>
      refine ⟨assign .skip ds, s₁, ?_⟩
      rw [pruned_eq, cut_cons]
      exact ⟨s₁, hroot, rfl⟩
    | descend =>
      refine ⟨assign .descend ds, s', ?_⟩
      rw [pruned_eq, cut_cons]
      exact ⟨s₁, hroot, hrest⟩

/-- The visitor with a record of the nodes it has been shown. -/
def recording (visitor : σ → Expr → σ × Step β) (s : σ × List Expr) (n : Expr) :
    (σ × List Expr) × Step β :=
  (((visitor s.1 n).1, s.2 ++ [n]), (visitor s.1 n).2)

private theorem Follows.recording {s s' : σ} {t : List (Expr × Step β)} (h : Follows visitor s t s')
    (seen : List Expr) :
    Follows (recording visitor) (s, seen) t (s', seen ++ t.map Prod.fst) := by
  induction t generalizing s seen with
  | nil =>
    obtain rfl : s = s' := h
    simp [Follows]
  | cons n t ih =>
    obtain ⟨n, a⟩ := n
    obtain ⟨s₁, hn, ht⟩ := h
    refine ⟨(s₁, seen ++ [n]), by simp [Expr.recording, hn], ?_⟩
    simpa using ih ht (seen ++ [n])

/-- A visitor that takes its steps from a list, whatever it is shown. -/
def scripted (script : List (Step β)) (_ : Expr) : List (Step β) × Step β :=
  (script.tail, script.headD .descend)

private theorem follows_scripted (t : List (Expr × Step β)) :
    Follows scripted (t.map Prod.snd) t [] := by
  induction t with
  | nil => rfl
  | cons n t ih => exact ⟨t.map Prod.snd, rfl, ih⟩

end Visits

private theorem length_nodes (e : Expr) : e.nodes.length = e.size := by
  induction e using children_induction with
  | step e ih =>
    rw [nodes_eq, size_eq, List.length_cons, List.length_flatMap, List.map_congr_left ih,
      Nat.add_comm]

/-- What the nodes of a tree are, and what a visit of them does. -/
structure VisitLaws (e : Expr) : Prop where
  nodes_eq : e.nodes = e :: e.children.flatMap nodes
  located : e.located.map Prod.snd = e.nodes
  /-- A visitor that follows an assignment of steps to places goes through the tree in pre-order,
  without what lies below the places to be skipped, up to the first place to stop at, and results in
  what it is to stop with there. -/
  visit : ∀ (σ β : Type) (d : Path → Step β) (visitor : σ → Expr → σ × Step β) (s s' : σ),
    Follows visitor s (cut (pruned d e)) s' →
      e.visit visitor s = (s', firstResult? (pruned d e)) ∧
      e.visit (recording visitor) (s, []) =
        ((s', (cut (pruned d e)).map Prod.fst), firstResult? (pruned d e))
  /-- Every assignment has a visitor that follows it. -/
  followed : ∀ (β : Type) (d : Path → Step β),
    ∃ (σ : Type) (visitor : σ → Expr → σ × Step β) (s s' : σ),
      Follows visitor s (cut (pruned d e)) s'
  /-- Every visitor follows an assignment. -/
  following : ∀ (σ β : Type) (visitor : σ → Expr → σ × Step β) (s : σ), ∃ d s',
    Follows visitor s (cut (pruned d e)) s'
  all_iff : ∀ p, e.all p = true ↔ ∀ n ∈ e.nodes, p n = true
  size_eq : e.size = e.nodes.length
  all_children : ∀ p, e.all p = true → ∀ c ∈ e.children, c.all p = true

end Expr

/-- A visit goes through the tree in pre-order, without what lies below the places to be skipped, up
to the first place to stop at. Hence a check of all nodes checks each of them, the size is the
number of nodes, and what is true throughout a tree is true throughout its children. -/
theorem visits_are_pruned_preorder (e : Expr) : e.VisitLaws where
  nodes_eq := e.nodes_eq
  located := e.map_snd_located
  visit _ _ d _ s s' h := ⟨Expr.obeyed e d s s' h, Expr.obeyed e d (s, []) _ (h.recording [])⟩
  followed _ _ := ⟨_, Expr.scripted, _, _, Expr.follows_scripted _⟩
  following _ _ visitor s := Expr.exists_follows visitor e s
  all_iff p := Expr.all_iff p e
  size_eq := e.length_nodes.symm
  all_children _ h _ hc := Expr.all_child h hc

open CheckedPass.Expr in
/-- The same block twice, its first copy skipped and its second one entered and left with 7. -/
theorem visits_are_pruned_preorder_twins :
    let x : Expr := .block [.var "x"]
    let e : Expr := .block [x, x, .var "y"]
    let d : Path → Step Nat := fun p =>
      if p = [0] then .skip else if p = [1, 0] then .stop 7 else .descend
    let script : List (Step Nat) := [.descend, .skip, .descend, .stop 7]
    let isLeafOrBlock : Expr → Bool := fun n => n.children.isEmpty || n.shape == x.shape
    Follows scripted script (cut (pruned d e)) [] ∧
      e.visit scripted script = ([], some 7) ∧
      e.visit (recording scripted) (script, []) = (([], [e, x, x, .var "x"]), some 7) ∧
      e.all isLeafOrBlock = true ∧ x ∈ e.children ∧ x.all isLeafOrBlock = true := by
  intro x e d script isLeafOrBlock
  have hlaws := visits_are_pruned_preorder e
  have hfollows : Follows scripted script (cut (pruned d e)) [] :=
    ⟨_, rfl, _, rfl, _, rfl, _, rfl, rfl⟩
  obtain ⟨hvisit, hrecord⟩ := hlaws.visit _ _ d scripted script [] hfollows
  have hall : e.all isLeafOrBlock = true := rfl
  have hx : x ∈ e.children := List.mem_cons_self
  exact ⟨hfollows, hvisit, hrecord, hall, hx, hlaws.all_children isLeafOrBlock hall x hx⟩

end CheckedPass
