import CheckedPass.Json.Expr
import CheckedPass.Json.Settings
import CheckedPass.Proofs.Numeral
import CheckedPass.Proofs.Tree
/-!
# What is written is read back

Expressions, programs, operators, literals, budgets and settings are read back from their JSON as
they were. More is read than is ever written: tags in two spellings, fields that nobody asks for,
digits with zeros at the end. An expression is written in one form, which numbers in their own one
form are part of.
-/

namespace CheckedPass

private theorem ofTag?_tag {α : Type} {all : List α} {tag : α → String}
    (hnodup : (all.map tag).Nodup) {a : α} (ha : a ∈ all) :
    ofTag? all tag (.str (tag a)) = some a := by
  have hsome : (all.find? fun b => tag b = tag a).isSome = true :=
    List.find?_isSome.mpr ⟨a, ha, decide_eq_true rfl⟩
  obtain ⟨b, hb⟩ := Option.isSome_iff_exists.mp hsome
  have htag : tag b = tag a := by simpa using List.find?_some hb
  have hab : b = a := List.inj_on_of_nodup_map hnodup (List.mem_of_find?_eq_some hb) ha htag
  exact hab ▸ hb

private theorem EagerOp.ofJson?_toJson (op : EagerOp) : EagerOp.ofJson? op.toJson = some op := by
  have hmem : op ∈ EagerOp.all := by
    simpa [Operator.vocabulary] using Operator.mem_vocabulary (.eager op)
  have hunary : (UnaryOp.all.map UnaryOp.tag).Nodup := by decide
  have hbinary : (BinaryOp.all.map BinaryOp.tag).Nodup := by decide +kernel
  have hternary : (TernaryOp.all.map TernaryOp.tag).Nodup := by decide
  have hdisplay : (Collection.all.map Collection.tag).Nodup := by decide
  cases op with
  | unary op =>
    have hread := ofTag?_tag hunary (a := op) (by simpa [EagerOp.all] using hmem)
    simp [toJson, ofJson?, Json.asTag?, hread]
  | binary op =>
    have hread := ofTag?_tag hbinary (a := op) (by simpa [EagerOp.all] using hmem)
    simp [toJson, ofJson?, Json.asTag?, hread]
  | ternary op =>
    have hread := ofTag?_tag hternary (a := op) (by simpa [EagerOp.all] using hmem)
    simp [toJson, ofJson?, Json.asTag?, hread]
  | display kind =>
    have hread := ofTag?_tag hdisplay (a := kind) (by simpa [EagerOp.all] using hmem)
    simp [toJson, ofJson?, Json.asTag?, hread]
  | call => rfl

private theorem Operator.ofJson?_toJson (op : Operator) : Operator.ofJson? op.toJson = some op := by
  cases op with
  | lazy op => cases op <;> decide
  | eager op => simp [toJson, ofJson?, EagerOp.ofJson?_toJson]

private theorem Json.asUInt32?_toNat (n : UInt32) : (Json.int n.toNat).asUInt32? = some n := by
  rw [asUInt32?, asNatBelow?_eq_some.mpr ⟨rfl, n.toNat_lt⟩, Option.map_some, UInt32.ofNat_toNat]

private theorem Json.asUInt64?_toNat (n : UInt64) : (Json.int n.toNat).asUInt64? = some n := by
  rw [asUInt64?, asNatBelow?_eq_some.mpr ⟨rfl, n.toNat_lt⟩, Option.map_some, UInt64.ofNat_toNat]

private theorem bitVectorOfJson?_obj (width : UInt32) (magnitude : Nat) :
    bitVectorOfJson? (.obj [("width", .int width.toNat), ("magnitude", natToJson magnitude)]) =
      some (.bitVector width magnitude) := by
  simp only [bitVectorOfJson?, Option.bind_eq_bind, Option.bind_eq_some_iff, Option.pure_def]
  exact ⟨_, rfl, width, Json.asUInt32?_toNat width, _, rfl, magnitude,
    natOfJson?_natToJson magnitude, rfl⟩

private theorem Literal.ofJson?_toJson (a : Literal) : Literal.ofJson? a.toJson = some a := by
  cases a with
  | unit => rfl
  | bool b => rfl
  | int n =>
    unfold ofJson?
    rw [if_neg nofun]
    simp [toJson, intOfJson?_intToJson]
  | real f =>
    unfold ofJson?
    rw [if_neg nofun]
    simp [toJson, fractionOfJson?_fractionToJson]
  | char c =>
    unfold ofJson?
    rw [if_neg nofun]
    simp [toJson, charOfJson?]
  | bitVector width magnitude =>
    unfold ofJson?
    rw [if_neg nofun]
    simp [toJson, bitVectorOfJson?_obj]
  | ordinal n =>
    unfold ofJson?
    rw [if_neg nofun]
    simp [toJson, natOfJson?_natToJson]

namespace Expr

private theorem listToJson_eq_map (es : List Expr) : listToJson es = es.map toJson := by
  induction es with
  | nil => rfl
  | cons e es ih => rw [listToJson, ih, List.map_cons]

private theorem arrayOfJson?_eq_listOf? (j : Json) : arrayOfJson? j = j.listOf? ofJson? := by
  have hlist : ∀ js, listOfJson? js = js.mapM ofJson? := by
    intro js
    induction js with
    | nil => rfl
    | cons j js ih => rw [listOfJson?, ih, List.mapM_cons]
  cases j with
  | arr items => rw [arrayOfJson?, hlist, Json.listOf?]
  | _ => rfl

private theorem ofField?_eq_bind (name : String) (fields : List (String × Json)) :
    ofField? name fields = (Json.field? name fields).bind ofJson? := by
  induction fields with
  | nil => rfl
  | cons p fields ih =>
    rw [ofField?, Json.field?, ih]
    split <;> rfl

private theorem arrayOfField?_eq_bind (name : String) (fields : List (String × Json)) :
    arrayOfField? name fields = (Json.field? name fields).bind arrayOfJson? := by
  induction fields with
  | nil => rfl
  | cons p fields ih =>
    rw [arrayOfField?, Json.field?, ih]
    split <;> rfl

private theorem ofJson?_toJson (e : Expr) : ofJson? e.toJson = some e := by
  induction e using children_induction with
  | step e ih =>
    have harray : ∀ es : List Expr, (∀ c ∈ es, ofJson? c.toJson = some c) →
        arrayOfJson? (.arr (listToJson es)) = some es := by
      intro es hes
      rw [listToJson_eq_map, arrayOfJson?_eq_listOf?, Json.listOf?_arr_map hes]
    have hnames : ∀ names : List String, namesOfJson? (namesToJson names) = some names :=
      fun names => Json.listOf?_arr_map fun x _ => rfl
    cases e with
    | var x => simp [toJson, ofJson?, Json.asString?]
    | lit a => simp [toJson, ofJson?, Literal.ofJson?_toJson]
    | fn params body =>
      simp [toJson, ofJson?, ofField?_eq_bind, Json.field?, hnames, ih body (by simp [children])]
    | app op args =>
      simp [toJson, ofJson?, arrayOfField?_eq_bind, Json.field?, Operator.ofJson?_toJson,
        harray args ih]
    | block items => simp [toJson, ofJson?, harray items ih]
    | cond test yes no =>
      simp [toJson, ofJson?, ofField?_eq_bind, Json.field?, ih test (by simp [children]),
        ih yes (by simp [children]), ih no (by simp [children])]
    | bind vars vals body =>
      have hvals := harray vals fun c hc => ih c (by simp [children, hc])
      simp [toJson, ofJson?, ofField?_eq_bind, arrayOfField?_eq_bind, Json.field?, hnames, hvals,
        ih body (by simp [children])]

end Expr

private theorem Program.ofJson?_toJson (p : Program) : Program.ofJson? p.toJson = some p := by
  simp [toJson, ofJson?, Expr.ofField?_eq_bind, Json.field?, Expr.ofJson?_toJson]

private theorem Json.fieldOr_eq_some {α : Type} {name : String} {standard a : α}
    {decode : Json → Option α} {fields : List (String × Json)} {j : Json}
    (hfield : Json.field? name fields = some j) (hread : decode j = some a) :
    Json.fieldOr name standard decode fields = some a := by
  rw [fieldOr, hfield]
  exact hread

private theorem Budget.ofJson?_toJson (b : Budget) : Budget.ofJson? b.toJson = some b := by
  simp only [toJson, ofJson?, Option.bind_eq_bind, Option.bind_eq_some_iff, Option.pure_def]
  exact ⟨_, rfl, b.depth, Json.fieldOr_eq_some rfl (Json.asUInt64?_toNat _),
    b.maxFuel, Json.fieldOr_eq_some rfl (Json.asUInt64?_toNat _),
    b.maxTuples, Json.fieldOr_eq_some rfl (Json.asUInt64?_toNat _), rfl⟩

private theorem Settings.ofJson?_toJson (s : Settings) : Settings.ofJson? s.toJson = some s := by
  simp only [toJson, ofJson?, Option.bind_eq_bind, Option.bind_eq_some_iff, Option.pure_def]
  exact ⟨_, rfl, s.fuel, Json.fieldOr_eq_some rfl (Json.asUInt64?_toNat _),
    s.budget, Json.fieldOr_eq_some rfl s.budget.ofJson?_toJson,
    s.checkContracts, Json.fieldOr_eq_some rfl rfl, rfl⟩

inductive Literal.Written : Literal → Json → Prop where
  | unit : Written .unit (.str "Unit")
  | bool (b : Bool) : Written (.bool b) (.obj [("Bool", .bool b)])
  | int {n : Int} {j : Json} (h : IntegerWritten n j) : Written (.int n) (.obj [("Int", j)])
  | real {f : Fraction} {j : Json} (h : FractionWritten f j) :
    Written (.real f) (.obj [("Real", j)])
  | char (c : Char) : Written (.char c) (.obj [("Char", .str (String.singleton c))])
  | bitVector {width : UInt32} {magnitude : Nat} {j : Json} (h : NaturalWritten magnitude j) :
    Written (.bitVector width magnitude)
      (.obj [("BitVector", .obj [("width", .int width.toNat), ("magnitude", j)])])
  | ordinal {n : Nat} {j : Json} (h : NaturalWritten n j) :
    Written (.ordinal n) (.obj [("Ordinal", j)])

/-- Each node under the name of its shape, with its parts in order. -/
inductive Expr.Written : Expr → Json → Prop where
  | var (x : String) : Written (.var x) (.obj [("Var", .str x)])
  | lit {a : Literal} {j : Json} (h : a.Written j) : Written (.lit a) (.obj [("Literal", j)])
  | fn {params : List String} {body : Expr} {j : Json} (h : Written body j) :
    Written (.fn params body)
      (.obj [("Abs", .obj [("params", .arr (params.map .str)), ("body", j)])])
  | app {op : Operator} {args : List Expr} {js : List Json} (h : List.Forall₂ Written args js) :
    Written (.app op args) (.obj [("Apply", .obj [("op", op.toJson), ("args", .arr js)])])
  | block {items : List Expr} {js : List Json} (h : List.Forall₂ Written items js) :
    Written (.block items) (.obj [("Block", .arr js)])
  | cond {test yes no : Expr} {jtest jyes jno : Json} (htest : Written test jtest)
    (hyes : Written yes jyes) (hno : Written no jno) :
    Written (.cond test yes no)
      (.obj [("If", .obj [("cond", jtest), ("then_branch", jyes), ("else_branch", jno)])])
  | bind {vars : List String} {vals : List Expr} {body : Expr} {js : List Json} {j : Json}
    (hvals : List.Forall₂ Written vals js) (hbody : Written body j) :
    Written (.bind vars vals body)
      (.obj [("Bind", .obj [("vars", .arr (vars.map .str)), ("vals", .arr js), ("body", j)])])

private theorem Literal.written_iff {a : Literal} {j : Json} : a.Written j ↔ j = a.toJson := by
  constructor
  · intro h
    cases h with
    | unit | bool | char => rfl
    | int h => rw [integerWritten_iff.mp h, toJson]
    | real h => rw [fractionWritten_iff.mp h, toJson]
    | bitVector h => rw [naturalWritten_iff.mp h, toJson]
    | ordinal h => rw [naturalWritten_iff.mp h, toJson]
  · rintro rfl
    cases a with
    | unit => exact .unit
    | bool b => exact .bool b
    | int n => exact .int (integerWritten_iff.mpr rfl)
    | real f => exact .real (fractionWritten_iff.mpr rfl)
    | char c => exact .char c
    | bitVector width magnitude => exact .bitVector (naturalWritten_iff.mpr rfl)
    | ordinal n => exact .ordinal (naturalWritten_iff.mpr rfl)

private theorem Expr.written_iff {e : Expr} {j : Json} : e.Written j ↔ j = e.toJson := by
  induction e using children_induction generalizing j with
  | step e ih =>
    have hlist : ∀ es js, (∀ c ∈ es, ∀ {j}, Written c j ↔ j = c.toJson) →
        (List.Forall₂ Written es js ↔ js = listToJson es) := by
      intro es js hes
      induction es generalizing js with
      | nil => simp [listToJson]
      | cons c es ih =>
        rw [List.forall_mem_cons] at hes
        simp [listToJson, List.forall₂_cons_left_iff, hes.1, ih _ hes.2]
    constructor
    · intro h
      cases h with
      | var => rfl
      | lit h => rw [Literal.written_iff.mp h, toJson]
      | fn h => rw [(ih _ (by simp [children])).mp h, toJson, namesToJson]
      | @app op args js h =>
        have hjs : js = listToJson args := (hlist _ _ ih).mp h
        rw [hjs, toJson]
      | @block items js h =>
        have hjs : js = listToJson items := (hlist _ _ ih).mp h
        rw [hjs, toJson]
      | cond htest hyes hno =>
        rw [(ih _ (by simp [children])).mp htest, (ih _ (by simp [children])).mp hyes,
          (ih _ (by simp [children])).mp hno, toJson]
      | bind hvals hbody =>
        rw [(hlist _ _ fun c hc => ih c (by simp [children, hc])).mp hvals,
          (ih _ (by simp [children])).mp hbody, toJson, namesToJson]
    · rintro rfl
      cases e with
      | var x => exact .var x
      | lit a => exact .lit (Literal.written_iff.mpr rfl)
      | fn params body => exact .fn ((ih _ (by simp [children])).mpr rfl)
      | app op args => exact .app ((hlist _ _ ih).mpr rfl)
      | block items => exact .block ((hlist _ _ ih).mpr rfl)
      | cond test yes no =>
        exact .cond ((ih _ (by simp [children])).mpr rfl) ((ih _ (by simp [children])).mpr rfl)
          ((ih _ (by simp [children])).mpr rfl)
      | bind vars vals body =>
        exact .bind ((hlist _ _ fun c hc => ih c (by simp [children, hc])).mpr rfl)
          ((ih _ (by simp [children])).mpr rfl)

/-- Whatever is written as JSON is read back as it was. An expression that was read from some JSON
is, written again, read once more, and it has the one form that expressions are written in; digits
have then lost the zeros at their end and nothing else. -/
theorem json_round_trip :
    (∀ e : Expr, Expr.ofJson? e.toJson = some e) ∧
    (∀ p : Program, Program.ofJson? p.toJson = some p) ∧
    (∀ a : Literal, Literal.ofJson? a.toJson = some a) ∧
    (∀ op : Operator, Operator.ofJson? op.toJson = some op) ∧
    (∀ b : Budget, Budget.ofJson? b.toJson = some b) ∧
    (∀ s : Settings, Settings.ofJson? s.toJson = some s) ∧
    (∀ (j : Json) (e : Expr), Expr.ofJson? j = some e →
      Expr.ofJson? e.toJson = some e ∧ ∀ j', e.Written j' ↔ j' = e.toJson) ∧
    ∀ (ds : List Nat) (n : Nat), natOfJson? (.arr (ds.map fun d : Nat => .int d)) = some n →
      natToJson n = .arr ((ds.rdropWhile (· = 0)).map fun d : Nat => .int d) :=
  ⟨Expr.ofJson?_toJson, Program.ofJson?_toJson, Literal.ofJson?_toJson, Operator.ofJson?_toJson,
    Budget.ofJson?_toJson, Settings.ofJson?_toJson,
    fun _ e _ => ⟨e.ofJson?_toJson, fun _ => Expr.written_iff⟩,
    fun _ _ => natToJson_of_natOfJson?⟩

/-- A tag over nothing, a field that nobody asks for, and a zero too many. -/
theorem json_round_trip_loose_spelling :
    let digits : Json := .arr [.int 7, .int 1, .int 0]
    let unit : Json := .obj [("Literal", .obj [("Unit", .null)])]
    let body : Json := .obj [("Literal", .obj [("Int", .arr [.int (-1), digits])])]
    let j : Json := .obj [("Block", .arr [unit,
      .obj [("Abs", .obj [("line", .int 3), ("body", body), ("params", .arr [.str "x"])])]])]
    let e : Expr := .block [.unit, .fn ["x"] (.int (-4294967303))]
    Expr.ofJson? j = some e ∧ Expr.ofJson? e.toJson = some e ∧ e.Written e.toJson ∧
      natOfJson? digits = some 4294967303 ∧ natToJson 4294967303 = .arr [.int 7, .int 1] := by
  intro digits unit body j e
  obtain ⟨-, -, -, -, -, -, hexpr, hdigits⟩ := json_round_trip
  have hread : Expr.ofJson? j = some e := rfl
  have hseven : natOfJson? digits = some 4294967303 := rfl
  obtain ⟨hagain, hform⟩ := hexpr j e hread
  exact ⟨hread, hagain, (hform _).mpr rfl, hseven, hdigits [7, 1, 0] _ hseven⟩

end CheckedPass
