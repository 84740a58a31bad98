import SafeMigrate.Identifiers

/-! Syntax trees of expressions, their conversion to the expressions that the engine
keeps, and what the conversion leaves out. -/

namespace SafeMigrate

/-- The text of a binary operator. `COLLATE` is a form of its own. -/
structure BinOp where
  text : String
  notCollate : text ≠ "COLLATE"

/-- The forms of expression that the conversion turns into a call, and the one it gives up. -/
inductive Form
  | call
  | case
  | array
  | between
  | index
  | slice
  | field
  | postfixOp
  | complex
deriving DecidableEq

/-- The form that the name of a converted call stands for. -/
def Form.ofName : String → Form
  | "<case>" => .case
  | "<array>" => .array
  | "<between>" => .between
  | "<index>" => .index
  | "<slice>" => .slice
  | "<field>" => .field
  | "<postfix>" => .postfixOp
  | _ => .call

/-- The text of what a call calls. No name is written like the marker of another form. -/
structure Callee where
  text : String
  notMarker : Form.ofName text = .call

/-- A reading makes no marker of a name. -/
def Callee.read (kept : String → String) (callee : Callee) : Callee :=
  if h : Form.ofName (kept callee.text) = .call then ⟨kept callee.text, h⟩ else callee

/-- The syntax tree of an expression. A file with a syntax error is refused as a whole, so
the parts that the grammar requires are there. -/
inductive SyntaxExpr
  | literal (text : String)
  | nameRef (text : String)
  /-- `clauses` are the parts of a call beside its arguments: DISTINCT, ORDER BY, FILTER,
  OVER, the names of the arguments. -/
  | callExpr (callee : Callee) (args : List SyntaxExpr) (clauses : String)
  | binExpr (lhs : SyntaxExpr) (op : BinOp) (rhs : SyntaxExpr)
  | castExpr (expr : SyntaxExpr) (ty : String)
  | prefixExpr (op : String) (expr : SyntaxExpr)
  | parenExpr (expr : SyntaxExpr)
  /-- The conditions and results of the WHEN clauses, in turn. -/
  | caseExpr (expr : Option SyntaxExpr) (whenClauses : List SyntaxExpr)
      (elseClause : Option SyntaxExpr)
  /-- `query` is the text of the query of an `ARRAY (SELECT ...)`. -/
  | arrayExpr (exprs : List SyntaxExpr) (query : String)
  /-- `form` tells BETWEEN, NOT BETWEEN and SYMMETRIC apart. -/
  | betweenExpr (target start finish : SyntaxExpr) (form : String)
  | indexExpr (base index : SyntaxExpr)
  | sliceExpr (base : SyntaxExpr) (start finish : Option SyntaxExpr)
  | fieldExpr (base : SyntaxExpr) (field : Option String)
  /-- `op` is ISNULL, NOTNULL and their like. `a IS NULL` is a binary expression, with the
  operator IS. -/
  | postfixExpr (expr : SyntaxExpr) (op : String)
  | collate (expr : SyntaxExpr) (collation : String)
  /-- Any other expression. -/
  | complex (text : String)

namespace SyntaxExpr

/-- Induction on a tree, with the hypothesis for every part. -/
@[elab_as_elim]
theorem inductionOn {P : SyntaxExpr → Prop} (e : SyntaxExpr) (literal : ∀ text, P (.literal text))
    (nameRef : ∀ text, P (.nameRef text))
    (callExpr : ∀ callee args clauses, (∀ arg ∈ args, P arg) → P (.callExpr callee args clauses))
    (binExpr : ∀ lhs op rhs, P lhs → P rhs → P (.binExpr lhs op rhs))
    (castExpr : ∀ expr ty, P expr → P (.castExpr expr ty))
    (prefixExpr : ∀ op expr, P expr → P (.prefixExpr op expr))
    (parenExpr : ∀ expr, P expr → P (.parenExpr expr))
    (caseExpr : ∀ expr whenClauses elseClause, (∀ e ∈ expr, P e) → (∀ e ∈ whenClauses, P e) →
      (∀ e ∈ elseClause, P e) → P (.caseExpr expr whenClauses elseClause))
    (arrayExpr : ∀ exprs query, (∀ e ∈ exprs, P e) → P (.arrayExpr exprs query))
    (betweenExpr : ∀ target start finish form, P target → P start → P finish →
      P (.betweenExpr target start finish form))
    (indexExpr : ∀ base index, P base → P index → P (.indexExpr base index))
    (sliceExpr : ∀ base start finish, P base → (∀ e ∈ start, P e) → (∀ e ∈ finish, P e) →
      P (.sliceExpr base start finish))
    (fieldExpr : ∀ base field, P base → P (.fieldExpr base field))
    (postfixExpr : ∀ expr op, P expr → P (.postfixExpr expr op))
    (collate : ∀ expr collation, P expr → P (.collate expr collation))
    (complex : ∀ text, P (.complex text)) : P e := by
  refine @SyntaxExpr.rec P (fun es => ∀ e ∈ es, P e) (fun o => ∀ e ∈ o, P e) literal nameRef
    callExpr binExpr castExpr prefixExpr parenExpr caseExpr arrayExpr betweenExpr indexExpr
    sliceExpr fieldExpr postfixExpr collate complex ?_ ?_ ?_ ?_ e
  · exact fun e h => absurd h List.not_mem_nil
  · intro first rest hfirst hrest e h
    rcases List.mem_cons.mp h with rfl | hmem
    · exact hfirst
    · exact hrest e hmem
  · exact fun e h => nomatch h
  · rintro inner hinner e h
    cases h
    exact hinner

end SyntaxExpr

namespace ExprVisitor

/-- `ExprVisitor::convert`. -/
def convert : SyntaxExpr → ExprIr
  | .literal text => .literal text
  | .nameRef text => .columnRef text
  | .callExpr callee args _ => .functionCall callee.text (convertAll args)
  | .binExpr lhs op rhs => .binaryOp (convert lhs) op.text (convert rhs)
  | .castExpr expr ty => .cast (convert expr) ty
  | .prefixExpr op expr => .unaryOp op (convert expr)
  | .parenExpr expr => convert expr
  | .caseExpr expr whenClauses elseClause =>
    .functionCall "<case>" (convertOr expr :: (convertAll whenClauses ++ [convertOr elseClause]))
  | .arrayExpr exprs _ => .functionCall "<array>" (convertAll exprs)
  | .betweenExpr target start finish _ =>
    .functionCall "<between>" [convert target, convert start, convert finish]
  | .indexExpr base index => .functionCall "<index>" [convert base, convert index]
  | .sliceExpr base start finish =>
    .functionCall "<slice>" [convert base, convertOr start, convertOr finish]
  | .fieldExpr base field =>
    .functionCall "<field>" [convert base, (field.map ExprIr.literal).getD .omitted]
  | .postfixExpr expr _ => .functionCall "<postfix>" [convert expr]
  | .collate expr collation => .binaryOp (convert expr) "COLLATE" (.literal collation)
  | .complex _ => .sentinel "<complex>"
where
  convertAll : List SyntaxExpr → List ExprIr
  | [] => []
  | e :: es => convert e :: convertAll es
  convertOr : Option SyntaxExpr → ExprIr
  | some e => convert e
  | none => .omitted

end ExprVisitor

section Canonical

namespace SyntaxExpr

/-- The tree without its parentheses. The texts that the conversion keeps are read by `kept`,
those that it leaves out by `lost`. -/
def rewrite (kept lost : String → String) : SyntaxExpr → SyntaxExpr
  | .literal text => .literal text
  | .nameRef text => .nameRef (kept text)
  | .callExpr callee args clauses =>
    .callExpr (callee.read kept) (rewriteAll args) (lost clauses)
  | .binExpr lhs op rhs => .binExpr (rewrite kept lost lhs) op (rewrite kept lost rhs)
  | .castExpr expr ty => .castExpr (rewrite kept lost expr) (kept ty)
  | .prefixExpr op expr => .prefixExpr op (rewrite kept lost expr)
  | .parenExpr expr => rewrite kept lost expr
  | .caseExpr expr whenClauses elseClause =>
    .caseExpr (rewriteOr expr) (rewriteAll whenClauses) (rewriteOr elseClause)
  | .arrayExpr exprs query => .arrayExpr (rewriteAll exprs) (lost query)
  | .betweenExpr target start finish form =>
    .betweenExpr (rewrite kept lost target) (rewrite kept lost start) (rewrite kept lost finish)
      (lost form)
  | .indexExpr base index => .indexExpr (rewrite kept lost base) (rewrite kept lost index)
  | .sliceExpr base start finish =>
    .sliceExpr (rewrite kept lost base) (rewriteOr start) (rewriteOr finish)
  | .fieldExpr base field => .fieldExpr (rewrite kept lost base) (field.map kept)
  | .postfixExpr expr op => .postfixExpr (rewrite kept lost expr) (lost op)
  | .collate expr collation => .collate (rewrite kept lost expr) (kept collation)
  | .complex text => .complex (lost text)
where
  rewriteAll : List SyntaxExpr → List SyntaxExpr
  | [] => []
  | e :: es => rewrite kept lost e :: rewriteAll es
  rewriteOr : Option SyntaxExpr → Option SyntaxExpr
  | some e => some (rewrite kept lost e)
  | none => none

/-- The tree without its parentheses, its texts read as `fold` reads them: up to the case of
identifiers and the spaces. -/
def canonical (fold : String → String) : SyntaxExpr → SyntaxExpr := rewrite fold fold

/-- The tree without its parentheses and without the texts that the conversion leaves out. -/
def skeleton : SyntaxExpr → SyntaxExpr := rewrite id fun _ => ""

/-- What the conversion leaves out of a tree: for each form that it turns into a call or
gives up, which form it is and the text that is lost. -/
def leftOut : SyntaxExpr → List (Form × String)
  | .literal _ => []
  | .nameRef _ => []
  | .callExpr _ args clauses => (.call, clauses) :: leftOutAll args
  | .binExpr lhs _ rhs => leftOut lhs ++ leftOut rhs
  | .castExpr expr _ => leftOut expr
  | .prefixExpr _ expr => leftOut expr
  | .parenExpr expr => leftOut expr
  | .caseExpr expr whenClauses elseClause =>
    (.case, "") :: (leftOutOr expr ++ (leftOutAll whenClauses ++ leftOutOr elseClause))
  | .arrayExpr exprs query => (.array, query) :: leftOutAll exprs
  | .betweenExpr target start finish form =>
    (.between, form) :: (leftOut target ++ (leftOut start ++ leftOut finish))
  | .indexExpr base index => (.index, "") :: (leftOut base ++ leftOut index)
  | .sliceExpr base start finish =>
    (.slice, "") :: (leftOut base ++ (leftOutOr start ++ leftOutOr finish))
  | .fieldExpr base _ => (.field, "") :: leftOut base
  | .postfixExpr expr op => (.postfixOp, op) :: leftOut expr
  | .collate expr _ => leftOut expr
  | .complex text => [(.complex, text)]
where
  leftOutAll : List SyntaxExpr → List (Form × String)
  | [] => []
  | e :: es => leftOut e ++ leftOutAll es
  leftOutOr : Option SyntaxExpr → List (Form × String)
  | some e => leftOut e
  | none => []

variable {kept lost : String → String}

@[simp] theorem rewriteAll_eq_map (es : List SyntaxExpr) :
    rewrite.rewriteAll kept lost es = es.map (rewrite kept lost) := by
  induction es with
  | nil => rfl
  | cons e es ih => simp [rewrite.rewriteAll, ih]

@[simp] theorem rewriteOr_eq_map (e : Option SyntaxExpr) :
    rewrite.rewriteOr kept lost e = e.map (rewrite kept lost) := by
  cases e <;> rfl

@[simp] theorem leftOutAll_eq_flatMap (es : List SyntaxExpr) :
    leftOut.leftOutAll es = es.flatMap leftOut := by
  induction es with
  | nil => rfl
  | cons e es ih => simp [leftOut.leftOutAll, ih]

@[simp] theorem leftOutOr_eq_flatMap (e : Option SyntaxExpr) :
    leftOut.leftOutOr e = e.toList.flatMap leftOut := by
  cases e <;> simp [leftOut.leftOutOr]

end SyntaxExpr

end Canonical

/-- The tree of the form that a call was made of. -/
def Form.assemble (fold : String → String) (name : String) (args : List (Option SyntaxExpr))
    (text : String) : Form → SyntaxExpr
  | .call =>
    if h : Form.ofName name = .call then
      .callExpr (Callee.read fold ⟨name, h⟩) (args.filterMap fun arg => arg) text
    else .complex text
  | .case => .caseExpr (args.head?.join) (args.tail.dropLast.filterMap fun arg => arg)
      (args.getLast?.join)
  | .array => .arrayExpr (args.filterMap fun arg => arg) text
  | .between => .betweenExpr (partAt 0) (partAt 1) (partAt 2) text
  | .index => .indexExpr (partAt 0) (partAt 1)
  | .slice => .sliceExpr (partAt 0) (args[1]?.join) (args[2]?.join)
  | .field => .fieldExpr (partAt 0) (args[1]?.join.map fun field => fold (literalOf field))
  | .postfixOp => .postfixExpr (partAt 0) text
  | .complex => .complex text
where
  partAt (i : Nat) : SyntaxExpr := args[i]?.join.getD (.complex "")
  literalOf : SyntaxExpr → String
  | .literal text => text
  | _ => ""

namespace ExprVisitor

/-- Puts what the conversion left out back into its result. -/
def restore (fold : String → String) :
    ExprIr → List (Form × String) → Option SyntaxExpr × List (Form × String)
  | .literal value, lost => (some (.literal value), lost)
  | .columnRef name, lost => (some (.nameRef (fold name)), lost)
  | .functionCall _ _, [] => (none, [])
  | .functionCall name args, (form, text) :: lost =>
    let (args, lost) := restoreAll args lost
    (some (form.assemble fold name args text), lost)
  | .binaryOp left op right, lost =>
    let (lhs, lost) := restore fold left lost
    let (rhs, lost) := restore fold right lost
    if h : op = "COLLATE" then
      (some (.collate (lhs.getD (.complex "")) (fold (Form.assemble.literalOf
        (rhs.getD (.complex ""))))), lost)
    else (some (.binExpr (lhs.getD (.complex "")) ⟨op, h⟩ (rhs.getD (.complex ""))), lost)
  | .cast expr targetType, lost =>
    let (expr, lost) := restore fold expr lost
    (some (.castExpr (expr.getD (.complex "")) (fold targetType)), lost)
  | .unaryOp op expr, lost =>
    let (expr, lost) := restore fold expr lost
    (some (.prefixExpr op (expr.getD (.complex ""))), lost)
  | .sentinel _, [] => (none, [])
  | .sentinel _, (_, text) :: lost => (some (.complex text), lost)
  | .omitted, lost => (none, lost)
where
  restoreAll : List ExprIr → List (Form × String) →
      List (Option SyntaxExpr) × List (Form × String)
  | [], lost => ([], lost)
  | e :: es, lost =>
    let (first, lost) := restore fold e lost
    let (rest, lost) := restoreAll es lost
    (first :: rest, lost)

variable {fold lost : String → String}

/-- The result of a conversion and what it left out give the tree back. -/
def Restores (fold lost : String → String) (e : SyntaxExpr) : Prop :=
  ∀ tail, restore fold (convert e) ((e.rewrite fold lost).leftOut ++ tail) =
    (some (e.rewrite fold lost), tail)

theorem restoreAll_convertAll {es : List SyntaxExpr} (h : ∀ e ∈ es, Restores fold lost e)
    (tail : List (Form × String)) :
    restore.restoreAll fold (convert.convertAll es)
        ((es.map (SyntaxExpr.rewrite fold lost)).flatMap SyntaxExpr.leftOut ++ tail) =
      ((es.map (SyntaxExpr.rewrite fold lost)).map some, tail) := by
  induction es with
  | nil => rfl
  | cons e es ih =>
    have hfirst := h e (by simp)
    have hrest := ih fun e he => h e (by simp [he])
    simp only [convert.convertAll, List.map_cons, List.flatMap_cons, restore.restoreAll,
      List.append_assoc, hfirst _, hrest]

theorem restoreAll_append (es es' : List ExprIr) (lost : List (Form × String)) :
    restore.restoreAll fold (es ++ es') lost =
      ((restore.restoreAll fold es lost).1 ++
          (restore.restoreAll fold es' (restore.restoreAll fold es lost).2).1,
        (restore.restoreAll fold es' (restore.restoreAll fold es lost).2).2) := by
  induction es generalizing lost with
  | nil => rfl
  | cons e es ih => simp only [List.cons_append, restore.restoreAll, ih]

theorem restore_convertOr {e : Option SyntaxExpr} (h : ∀ part ∈ e, Restores fold lost part)
    (tail : List (Form × String)) :
    restore fold (convert.convertOr e)
        ((e.map (SyntaxExpr.rewrite fold lost)).toList.flatMap SyntaxExpr.leftOut ++ tail) =
      (e.map (SyntaxExpr.rewrite fold lost), tail) := by
  cases e with
  | none => rfl
  | some e =>
    have hpart := h e rfl tail
    simpa [convert.convertOr] using hpart

theorem restores (e : SyntaxExpr) : Restores fold lost e := by
  induction e using SyntaxExpr.inductionOn with
  | literal text => exact fun tail => rfl
  | nameRef text => exact fun tail => rfl
  | callExpr callee args clauses ih =>
    intro tail
    simp [convert, SyntaxExpr.rewrite, SyntaxExpr.leftOut, restore, restoreAll_convertAll ih,
      Form.assemble, callee.notMarker]
  | binExpr lhs op rhs ihl ihr =>
    intro tail
    simp [convert, SyntaxExpr.rewrite, SyntaxExpr.leftOut, restore, ihl _, ihr _, op.notCollate]
  | castExpr expr ty ih =>
    intro tail
    simp [convert, SyntaxExpr.rewrite, SyntaxExpr.leftOut, restore, ih _]
  | prefixExpr op expr ih =>
    intro tail
    simp [convert, SyntaxExpr.rewrite, SyntaxExpr.leftOut, restore, ih _]
  | parenExpr expr ih => exact ih
  | caseExpr expr whenClauses elseClause ihe ihw ihl =>
    intro tail
    simp [convert, SyntaxExpr.rewrite, SyntaxExpr.leftOut, restore, restore.restoreAll,
      restoreAll_append, restore_convertOr ihe, restoreAll_convertAll ihw, restore_convertOr ihl,
      Form.assemble, List.getLast?_cons]
  | arrayExpr exprs query ih =>
    intro tail
    simp [convert, SyntaxExpr.rewrite, SyntaxExpr.leftOut, restore, restoreAll_convertAll ih,
      Form.assemble]
  | betweenExpr target start finish form iht ihs ihf =>
    intro tail
    simp [convert, SyntaxExpr.rewrite, SyntaxExpr.leftOut, restore, restore.restoreAll, iht _,
      ihs _, ihf _, Form.assemble, Form.assemble.partAt]
  | indexExpr base index ihb ihi =>
    intro tail
    simp [convert, SyntaxExpr.rewrite, SyntaxExpr.leftOut, restore, restore.restoreAll, ihb _,
      ihi _, Form.assemble, Form.assemble.partAt]
  | sliceExpr base start finish ihb ihs ihf =>
    intro tail
    simp [convert, SyntaxExpr.rewrite, SyntaxExpr.leftOut, restore, restore.restoreAll, ihb _,
      restore_convertOr ihs, restore_convertOr ihf, Form.assemble, Form.assemble.partAt]
  | fieldExpr base field ihb =>
    intro tail
    cases field <;>
      simp [convert, SyntaxExpr.rewrite, SyntaxExpr.leftOut, restore, restore.restoreAll, ihb _,
        Form.assemble, Form.assemble.partAt, Form.assemble.literalOf]
  | postfixExpr expr op ih =>
    intro tail
    simp [convert, SyntaxExpr.rewrite, SyntaxExpr.leftOut, restore, restore.restoreAll, ih _,
      Form.assemble, Form.assemble.partAt]
  | collate expr collation ih =>
    intro tail
    simp [convert, SyntaxExpr.rewrite, SyntaxExpr.leftOut, restore, ih _,
      Form.assemble.literalOf]
  | complex text => exact fun tail => rfl

theorem rewrite_eq_iff_leftOut_eq {e e' : SyntaxExpr} (h : convert e = convert e') :
    e.rewrite fold lost = e'.rewrite fold lost ↔
      (e.rewrite fold lost).leftOut = (e'.rewrite fold lost).leftOut := by
  constructor
  · exact fun hsame => by rw [hsame]
  · intro hlost
    have hleft := @restores fold lost e []
    have hright := @restores fold lost e' []
    rw [h, hlost, hright] at hleft
    exact (Option.some.inj (congrArg Prod.fst hleft)).symm

/-- Trees that the conversion does not tell apart are the same expression exactly if it
leaves the same out of both. -/
theorem canonical_eq_iff_leftOut_eq {e e' : SyntaxExpr} (h : convert e = convert e') :
    e.canonical fold = e'.canonical fold ↔
      (e.canonical fold).leftOut = (e'.canonical fold).leftOut :=
  rewrite_eq_iff_leftOut_eq h

section Skeleton

/-- What the conversion left out to give the expression, with the texts blanked. -/
def forms : ExprIr → List (Form × String)
  | .literal _ => []
  | .columnRef _ => []
  | .functionCall name args => (Form.ofName name, "") :: formsAll args
  | .binaryOp left _ right => forms left ++ forms right
  | .cast expr _ => forms expr
  | .unaryOp _ expr => forms expr
  | .sentinel _ => [(.complex, "")]
  | .omitted => []
where
  formsAll : List ExprIr → List (Form × String)
  | [] => []
  | e :: es => forms e ++ formsAll es

@[simp] theorem formsAll_eq_flatMap (es : List ExprIr) :
    forms.formsAll es = es.flatMap forms := by
  induction es with
  | nil => rfl
  | cons e es ih => simp [forms.formsAll, ih]

@[simp] theorem convertAll_eq_map (es : List SyntaxExpr) :
    convert.convertAll es = es.map convert := by
  induction es with
  | nil => rfl
  | cons e es ih => simp [convert.convertAll, ih]

theorem flatMap_forms {es : List SyntaxExpr}
    (h : ∀ e ∈ es, forms (convert e) = e.skeleton.leftOut) :
    (es.map convert).flatMap forms =
      (es.map (SyntaxExpr.rewrite id fun _ => "")).flatMap SyntaxExpr.leftOut := by
  rw [List.flatMap_map, List.flatMap_map]
  exact List.flatMap_congr h

theorem forms_convertOr {e : Option SyntaxExpr}
    (h : ∀ part ∈ e, forms (convert part) = part.skeleton.leftOut) :
    forms (convert.convertOr e) =
      (e.map (SyntaxExpr.rewrite id fun _ => "")).toList.flatMap SyntaxExpr.leftOut := by
  cases e with
  | none => rfl
  | some e =>
    have hpart := h e rfl
    simpa [convert.convertOr, SyntaxExpr.skeleton] using hpart

theorem forms_convert (e : SyntaxExpr) : forms (convert e) = e.skeleton.leftOut := by
  unfold SyntaxExpr.skeleton
  induction e using SyntaxExpr.inductionOn with
  | literal text => rfl
  | nameRef text => rfl
  | callExpr callee args clauses ih =>
    simp [convert, forms, SyntaxExpr.rewrite, SyntaxExpr.leftOut, flatMap_forms ih,
      callee.notMarker]
  | binExpr lhs op rhs ihl ihr =>
    simp [convert, forms, SyntaxExpr.rewrite, SyntaxExpr.leftOut, ihl, ihr]
  | castExpr expr ty ih => exact ih
  | prefixExpr op expr ih => exact ih
  | parenExpr expr ih => exact ih
  | caseExpr expr whenClauses elseClause ihe ihw ihl =>
    simp [convert, forms, SyntaxExpr.rewrite, SyntaxExpr.leftOut, forms_convertOr ihe,
      flatMap_forms ihw, forms_convertOr ihl, Form.ofName]
  | arrayExpr exprs query ih =>
    simp [convert, forms, SyntaxExpr.rewrite, SyntaxExpr.leftOut, flatMap_forms ih, Form.ofName]
  | betweenExpr target start finish form iht ihs ihf =>
    simp [convert, forms, SyntaxExpr.rewrite, SyntaxExpr.leftOut, iht, ihs, ihf, Form.ofName]
  | indexExpr base index ihb ihi =>
    simp [convert, forms, SyntaxExpr.rewrite, SyntaxExpr.leftOut, ihb, ihi, Form.ofName]
  | sliceExpr base start finish ihb ihs ihf =>
    simp [convert, forms, SyntaxExpr.rewrite, SyntaxExpr.leftOut, ihb, forms_convertOr ihs,
      forms_convertOr ihf, Form.ofName]
  | fieldExpr base field ihb =>
    cases field <;>
      simp [convert, forms, SyntaxExpr.rewrite, SyntaxExpr.leftOut, ihb, Form.ofName]
  | postfixExpr expr op ih =>
    simp [convert, forms, SyntaxExpr.rewrite, SyntaxExpr.leftOut, ih, Form.ofName]
  | collate expr collation ih =>
    simp [convert, forms, SyntaxExpr.rewrite, SyntaxExpr.leftOut, ih]
  | complex text => rfl

@[simp] theorem read_id (callee : Callee) : callee.read id = callee := by
  simp [Callee.read, callee.notMarker]

theorem convertOr_skeleton {e : Option SyntaxExpr}
    (h : ∀ part ∈ e, convert part.skeleton = convert part) :
    convert.convertOr (e.map (SyntaxExpr.rewrite id fun _ => "")) = convert.convertOr e := by
  cases e with
  | none => rfl
  | some e => exact h e rfl

theorem map_convert_skeleton {es : List SyntaxExpr}
    (h : ∀ e ∈ es, convert e.skeleton = convert e) :
    (es.map (SyntaxExpr.rewrite id fun _ => "")).map convert = es.map convert := by
  rw [List.map_map]
  exact List.map_congr_left h

theorem convert_skeleton (e : SyntaxExpr) : convert e.skeleton = convert e := by
  unfold SyntaxExpr.skeleton
  induction e using SyntaxExpr.inductionOn with
  | literal text => rfl
  | nameRef text => rfl
  | callExpr callee args clauses ih =>
    simp only [convert, SyntaxExpr.rewrite, SyntaxExpr.rewriteAll_eq_map, convertAll_eq_map,
      map_convert_skeleton ih, read_id]
  | binExpr lhs op rhs ihl ihr => simp only [convert, SyntaxExpr.rewrite, ihl, ihr]
  | castExpr expr ty ih => simp only [convert, SyntaxExpr.rewrite, ih, id]
  | prefixExpr op expr ih => simp only [convert, SyntaxExpr.rewrite, ih]
  | parenExpr expr ih => exact ih
  | caseExpr expr whenClauses elseClause ihe ihw ihl =>
    simp only [convert, SyntaxExpr.rewrite, SyntaxExpr.rewriteAll_eq_map,
      SyntaxExpr.rewriteOr_eq_map, convertAll_eq_map, convertOr_skeleton ihe,
      map_convert_skeleton ihw, convertOr_skeleton ihl]
  | arrayExpr exprs query ih =>
    simp only [convert, SyntaxExpr.rewrite, SyntaxExpr.rewriteAll_eq_map, convertAll_eq_map,
      map_convert_skeleton ih]
  | betweenExpr target start finish form iht ihs ihf =>
    simp only [convert, SyntaxExpr.rewrite, iht, ihs, ihf]
  | indexExpr base index ihb ihi => simp only [convert, SyntaxExpr.rewrite, ihb, ihi]
  | sliceExpr base start finish ihb ihs ihf =>
    simp only [convert, SyntaxExpr.rewrite, SyntaxExpr.rewriteOr_eq_map, ihb,
      convertOr_skeleton ihs, convertOr_skeleton ihf]
  | fieldExpr base field ihb => simp only [convert, SyntaxExpr.rewrite, ihb, Option.map_id, id]
  | postfixExpr expr op ih => simp only [convert, SyntaxExpr.rewrite, ih]
  | collate expr collation ih => simp only [convert, SyntaxExpr.rewrite, ih, id]
  | complex text => rfl

/-- The conversion tells two trees apart exactly if they differ in a part that it keeps. -/
theorem convert_eq_iff {e e' : SyntaxExpr} :
    convert e = convert e' ↔ e.skeleton = e'.skeleton := by
  constructor
  · intro h
    refine (rewrite_eq_iff_leftOut_eq h).mpr ?_
    have hforms := forms_convert e
    rw [h, forms_convert e'] at hforms
    exact hforms.symm
  · intro h
    rw [← convert_skeleton e, h, convert_skeleton e']

end Skeleton

end ExprVisitor

end SafeMigrate
