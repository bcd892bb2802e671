/-
ScriptLang.Proofs.Tree.Recovery — trees are recovered from their forms.

The head word of a form and its parts say of which shape the tree is
(`Expr.Genuine.shape_form`), and trees of one shape have equal forms only if
their parts do. At the leaves the words tell the tokens and the constants
(`Proofs.Tree.Words`). What a form does not show are the tokens of which only
one spelling exists, such as the parenthesis that closes a call. So trees with
genuine words that have one form are equal but for identities and lines
(`Expr.Genuine.form_inj`, `Stmt.Genuine.form_inj`).
-/
import ScriptLang.Proofs.Tree.Words

namespace ScriptLang

/-! ## 1. Expressions -/

/-- The shapes of expressions. -/
inductive Shape where
  | literal | group | unary | binary | logical | read | assign | call | property | setProperty
  | self
  deriving DecidableEq

/-- The shape of an expression. -/
def Expr.shape : Expr → Shape
  | .literal .. => .literal
  | .group .. => .group
  | .unary .. => .unary
  | .binary .. => .binary
  | .logical .. => .logical
  | .read .. => .read
  | .assign .. => .assign
  | .call .. => .call
  | .property .. => .property
  | .setProperty .. => .setProperty
  | .self .. => .self

/-- Whether a form is a word. -/
def Form.isWord : Form → Bool
  | .word _ => true
  | .list _ => false

/-- The shape of the expression that a form is the form of. -/
def Form.shape : Form → Shape
  | .word text =>
    if text = "this" then .self
    else if text ∈ constantWords ∨ beginsNumber text = true then .literal
    else .read
  | .list (.word head :: parts) =>
    if head = "group" then .group
    else if head = "call" then .call
    else if head = "." then .property
    else if head = "=" then if parts.head?.any Form.isWord then .assign else .setProperty
    else if head ∈ ["and", "or"] then .logical
    else if parts.length = 1 then .unary else .binary
  | .list _ => .call

theorem Form.shape_operator {head : String} {parts : List Form}
    (h : head ∉ ["group", "call", ".", "="]) :
    (Form.list (.word head :: parts)).shape =
      if head ∈ ["and", "or"] then .logical else if parts.length = 1 then .unary else .binary := by
  simp only [List.mem_cons, List.not_mem_nil, or_false, not_or] at h
  rw [Form.shape, if_neg h.1, if_neg h.2.1, if_neg h.2.2.1, if_neg h.2.2.2]

/-- The texts of tokens of some kinds. -/
def Kind.textsOf (kinds : List Kind) : List String :=
  (Kind.texts.filter (·.2 ∈ kinds)).map Prod.fst

theorem Token.Genuine.mem_textsOf {t : Token} (h : t.Genuine) {kinds : List Kind}
    (hkind : t.kind ∈ kinds) (htexts : ∀ kind ∈ kinds, kind ∈ Kind.texts.map Prod.snd) :
    t.lexeme ∈ Kind.textsOf kinds := by
  obtain ⟨⟨text, kind⟩, hentry, hsame⟩ := List.mem_map.mp (htexts _ hkind)
  obtain rfl : kind = t.kind := hsame
  refine List.mem_map.mpr ⟨(text, t.kind), ?_, (h.lexeme_eq hentry).symm⟩
  simpa using ⟨hentry, hkind⟩

/-- The kinds of operators. -/
def operatorKinds : List Kind := [.bang, .minus] ++ binaryKinds ++ [.andWord, .orWord]

/-- An operator is a word, and none that other forms have as their head. -/
theorem operator_texts : ∀ text ∈ Kind.textsOf operatorKinds,
    isWord text = true ∧ text ∉ ["group", "call", ".", "="] := by
  decide

theorem logical_texts : ∀ text ∈ Kind.textsOf [.andWord, .orWord], text ∈ ["and", "or"] := by
  decide

theorem binary_texts : ∀ text ∈ Kind.textsOf ([.bang, .minus] ++ binaryKinds),
    text ∉ ["and", "or"] := by
  decide

theorem Token.Genuine.operator {t : Token} (h : t.Genuine) (hkind : t.kind ∈ operatorKinds) :
    isWord t.lexeme = true ∧ t.lexeme ∉ ["group", "call", ".", "="] :=
  operator_texts _ (h.mem_textsOf hkind (by decide))

/-- The words of an expression are as sources have them, operators are operators and names are
names, and its constants are finite numbers or words for constants. -/
inductive Expr.Genuine : Expr → Prop where
  | literal {id value} : value.mark.Genuine → Genuine (.literal id value)
  | group {id inner} : Genuine inner → Genuine (.group id inner)
  | unary {id operator operand} : Apt Token.Genuine [.bang, .minus] operator → Genuine operand →
      Genuine (.unary id operator operand)
  | binary {id left operator right} : Apt Token.Genuine binaryKinds operator → Genuine left →
      Genuine right → Genuine (.binary id left operator right)
  | logical {id left operator right} : Apt Token.Genuine [.andWord, .orWord] operator →
      Genuine left → Genuine right → Genuine (.logical id left operator right)
  | read {id name} : Apt Token.Genuine [.identifier] name → Genuine (.read id name)
  | assign {id name value} : Apt Token.Genuine [.identifier] name → Genuine value →
      Genuine (.assign id name value)
  | call {id callee paren arguments} : Genuine callee → Apt Token.Genuine [.rightParen] paren →
      (∀ e ∈ arguments, Genuine e) → Genuine (.call id callee paren arguments)
  | property {id object name} : Genuine object → Apt Token.Genuine [.identifier] name →
      Genuine (.property id object name)
  | setProperty {id object name value} : Genuine object → Apt Token.Genuine [.identifier] name →
      Genuine value → Genuine (.setProperty id object name value)
  | self {id keyword} : Apt Token.Genuine [.thisWord] keyword → Genuine (.self id keyword)

theorem Expr.mem_inOrderMore {es : List Expr} {e : Expr} (he : e ∈ es) {mark : Mark}
    (hmark : mark ∈ e.inOrder) : mark ∈ Expr.inOrderMore es := by
  induction es with
  | nil => cases he
  | cons first es ih =>
    rw [Expr.inOrderMore]
    refine List.mem_cons_of_mem _ (List.mem_append.mpr ?_)
    rcases List.mem_cons.mp he with rfl | he
    · exact .inl hmark
    · exact .inr (ih he)

theorem Expr.mem_inOrderAll {es : List Expr} {e : Expr} (he : e ∈ es) {mark : Mark}
    (hmark : mark ∈ e.inOrder) : mark ∈ Expr.inOrderAll es := by
  cases es with
  | nil => cases he
  | cons first es =>
    rw [Expr.inOrderAll]
    rcases List.mem_cons.mp he with rfl | he
    · exact List.mem_append_left _ hmark
    · exact List.mem_append_right _ (Expr.mem_inOrderMore he hmark)

/-- An expression is genuine if its words are. -/
theorem Expr.Stratified.genuine {e : Expr} (h : e.Stratified)
    (hmarks : ∀ mark ∈ e.inOrder, mark.Genuine) : e.Genuine := by
  induction h with
  | literal => exact .literal (hmarks _ (List.mem_singleton.mpr rfl))
  | self hkind =>
    exact .self ⟨hmarks (.token _) (List.mem_singleton.mpr rfl), List.mem_singleton.mpr hkind⟩
  | read hkind =>
    exact .read ⟨hmarks (.token _) (List.mem_singleton.mpr rfl), List.mem_singleton.mpr hkind⟩
  | group _ ih =>
    simp only [Expr.inOrder, List.forall_mem_cons, List.forall_mem_append] at hmarks
    exact .group (ih hmarks.2.1)
  | unary hkind _ _ ih =>
    simp only [Expr.inOrder, List.forall_mem_cons] at hmarks
    exact .unary ⟨hmarks.1, hkind⟩ (ih hmarks.2)
  | binary hkind _ _ _ _ ih ih' =>
    simp only [Expr.inOrder, List.forall_mem_cons, List.forall_mem_append] at hmarks
    exact .binary ⟨hmarks.2.1, hkind⟩ (ih hmarks.1) (ih' hmarks.2.2)
  | logical hkind _ _ _ _ ih ih' =>
    simp only [Expr.inOrder, List.forall_mem_cons, List.forall_mem_append] at hmarks
    exact .logical ⟨hmarks.2.1, hkind⟩ (ih hmarks.1) (ih' hmarks.2.2)
  | assign hkind _ ih =>
    simp only [Expr.inOrder, List.forall_mem_cons] at hmarks
    exact .assign ⟨hmarks.1, List.mem_singleton.mpr hkind⟩ (ih hmarks.2.2)
  | setProperty _ _ hkind _ ih ih' =>
    simp only [Expr.inOrder, List.forall_mem_cons, List.forall_mem_append] at hmarks
    exact .setProperty (ih hmarks.1) ⟨hmarks.2.2.1, List.mem_singleton.mpr hkind⟩
      (ih' hmarks.2.2.2.2)
  | call _ _ hkind _ _ ih ih' =>
    simp only [Expr.inOrder, List.forall_mem_cons, List.forall_mem_append] at hmarks
    obtain ⟨hcallee, -, harguments, hparen, -⟩ := hmarks
    exact .call (ih hcallee) ⟨hparen, List.mem_singleton.mpr hkind⟩ fun e he =>
      ih' e he fun mark hmark => harguments mark (Expr.mem_inOrderAll he hmark)
  | property _ _ hkind ih =>
    simp only [Expr.inOrder, List.forall_mem_cons, List.forall_mem_append] at hmarks
    exact .property (ih hmarks.1) ⟨hmarks.2.2.1, List.mem_singleton.mpr hkind⟩

section Names

variable {t t' : Token}

theorem Apt.kind_eq {good : Token → Prop} {kind : Kind} (h : Apt good [kind] t) : t.kind = kind :=
  List.mem_singleton.mp h.kind

theorem Apt.valid_name (h : Apt Token.Genuine [.identifier] t) : t.form.Valid :=
  (h.good.valid_name h.kind_eq).1

theorem Apt.operator {kinds : List Kind} (h : Apt Token.Genuine kinds t)
    (hkinds : ∀ kind ∈ kinds, kind ∈ operatorKinds) :
    isWord t.lexeme = true ∧ t.lexeme ∉ ["group", "call", ".", "="] :=
  h.good.operator (hkinds _ h.kind)

/-- The form of a token tells the token, up to its line. -/
theorem erase_eq_of_form {kinds : List Kind} (h : Apt Token.Genuine kinds t)
    (h' : Apt Token.Genuine kinds t') (heq : t.form = t'.form) :
    Relabelling.erase.token t = Relabelling.erase.token t' :=
  h.good.erase_eq h'.good (Form.word.inj heq)

/-- So does the kind, where it has one text. -/
theorem erase_eq_of_apt (text : String) {kind : Kind} (h : Apt Token.Genuine [kind] t)
    (h' : Apt Token.Genuine [kind] t') (htext : (text, kind) ∈ Kind.texts) :
    Relabelling.erase.token t = Relabelling.erase.token t' :=
  h.good.erase_eq_of_kind h'.good (h.kind_eq.trans h'.kind_eq.symm) (h.kind_eq ▸ htext)

end Names

theorem Expr.formAll_eq_map (es : List Expr) : Expr.formAll es = es.map Expr.form := by
  induction es with
  | nil => rfl
  | cons e es ih => rw [Expr.formAll, ih, List.map_cons]

theorem Form.Valid.list_cons {form : Form} {parts : List Form} (h : form.Valid)
    (hparts : ∀ form ∈ parts, form.Valid) : (Form.list (form :: parts)).Valid :=
  .list (List.forall_mem_cons.mpr ⟨h, hparts⟩)

/-- If the forms of good parts tell the parts, then their forms together do. -/
theorem map_eq_of_forall {α β : Type} {good : α → Prop} {form : α → Form} {erased : α → β}
    {parts parts' : List α} (hgood : ∀ a ∈ parts', good a)
    (h : ∀ a ∈ parts, ∀ {a'}, good a' → form a = form a' → erased a = erased a')
    (heq : parts.map form = parts'.map form) : parts.map erased = parts'.map erased := by
  induction parts generalizing parts' with
  | nil =>
    obtain rfl : parts' = [] := List.map_eq_nil_iff.mp heq.symm
    rfl
  | cons a parts ih =>
    cases parts' with
    | nil => cases heq
    | cons a' parts' =>
      rw [List.map_cons, List.map_cons, List.cons.injEq] at heq
      rw [List.map_cons, List.map_cons,
        h a List.mem_cons_self (hgood a' List.mem_cons_self) heq.1,
        ih (fun a ha => hgood a (List.mem_cons_of_mem _ ha))
          (fun a ha => h a (List.mem_cons_of_mem _ ha)) heq.2]

namespace Expr.Genuine

/-- The forms of expressions are made of words. -/
theorem valid_form {e : Expr} (h : e.Genuine) : e.form.Valid := by
  induction h with
  | literal hvalue => exact (Constant.valid_form hvalue).1
  | self => exact .of_isWord (by decide)
  | read hname => exact hname.valid_name
  | group _ ih => exact .list_cons (.of_isWord (by decide)) (by simpa using ih)
  | unary hoperator _ ih =>
    have hword := (hoperator.operator (by decide)).1
    exact .list_cons (.of_isWord hword) (by simpa using ih)
  | binary hoperator _ _ ih ih' | logical hoperator _ _ ih ih' =>
    have hword := (hoperator.operator (by decide)).1
    exact .list_cons (.of_isWord hword) (by simpa using ⟨ih, ih'⟩)
  | assign hname _ ih =>
    exact .list_cons (.of_isWord (by decide)) (by simpa using ⟨hname.valid_name, ih⟩)
  | call _ _ _ ih ih' =>
    refine .list_cons (.of_isWord (by decide)) (List.forall_mem_cons.mpr ⟨ih, ?_⟩)
    rw [Expr.formAll_eq_map]
    exact List.forall_mem_map.mpr ih'
  | property _ hname ih =>
    exact .list_cons (.of_isWord (by decide)) (by simpa using ⟨ih, hname.valid_name⟩)
  | setProperty _ hname _ ih ih' =>
    have hinner : (Form.list [.word ".", _, _]).Valid :=
      .list_cons (.of_isWord (by decide)) (by simpa using ⟨ih, hname.valid_name⟩)
    exact .list_cons (.of_isWord (by decide)) (by simpa using ⟨hinner, ih'⟩)

/-- The form of an expression tells its shape. -/
theorem shape_form {e : Expr} (h : e.Genuine) : e.form.shape = e.shape := by
  cases h with
  | self | group | assign | call | property | setProperty => rfl
  | literal hvalue =>
    have hword := (Constant.valid_form hvalue).2
    rw [Expr.form, Constant.form, Form.shape, if_neg ?_, if_pos hword, Expr.shape]
    intro hthis
    rw [hthis] at hword
    exact absurd hword (by decide)
  | read hname =>
    have hbegins := (hname.good.valid_name hname.kind_eq).2
    have hother : ∀ {text : String}, Kind.ofWord text ≠ .identifier → _ ≠ text :=
      hname.good.name_ne hname.kind_eq
    rw [Expr.form, Token.form, Form.shape, if_neg (hother (by decide)), if_neg ?_, Expr.shape]
    simp only [constantWords, List.mem_cons, List.not_mem_nil, or_false, hbegins,
      Bool.false_eq_true]
    exact not_or.mpr ⟨hother (by decide), not_or.mpr ⟨hother (by decide), hother (by decide)⟩⟩
  | unary hoperator =>
    have hplain := binary_texts _
      (hoperator.good.mem_textsOf (List.mem_append_left _ hoperator.kind) (by decide))
    rw [Expr.form, Token.form, Form.shape_operator (hoperator.operator (by decide)).2,
      if_neg hplain]
    rfl
  | binary hoperator =>
    have hplain := binary_texts _
      (hoperator.good.mem_textsOf (List.mem_append_right _ hoperator.kind) (by decide))
    rw [Expr.form, Token.form, Form.shape_operator (hoperator.operator (by decide)).2,
      if_neg hplain]
    rfl
  | logical hoperator =>
    have hlogical := logical_texts _ (hoperator.good.mem_textsOf hoperator.kind (by decide))
    rw [Expr.form, Token.form, Form.shape_operator (hoperator.operator (by decide)).2,
      if_pos hlogical]
    rfl

theorem same_shape {e e' : Expr} (h : e.Genuine) (h' : e'.Genuine) (heq : e.form = e'.form) :
    e.shape = e'.shape := by
  rw [← h.shape_form, heq, h'.shape_form]

/-- The form of an expression tells the expression, up to identities and lines. -/
theorem form_inj {e e' : Expr} (h : e.Genuine) (h' : e'.Genuine) (heq : e.form = e'.form) :
    e.relabel .erase = e'.relabel .erase := by
  have hshape := h.same_shape h' heq
  induction h generalizing e' with
  | literal hvalue =>
    cases h' with
    | literal hvalue' =>
      obtain rfl := Constant.eq_of_outline hvalue hvalue' (Form.word.inj heq)
      rfl
    | _ => cases hshape
  | self hkeyword =>
    cases h' with
    | self hkeyword' =>
      have htoken := erase_eq_of_apt "this" hkeyword hkeyword' (by decide)
      exact congrArg (Expr.self 0) htoken
    | _ => cases hshape
  | read hname =>
    cases h' with
    | read hname' => exact congrArg (Expr.read 0) (erase_eq_of_form hname hname' heq)
    | _ => cases hshape
  | group hinner ih =>
    cases h' with
    | group hinner' =>
      simp only [Expr.form, Form.list.injEq, List.cons.injEq, and_true, true_and] at heq
      have hsame := ih hinner' heq (hinner.same_shape hinner' heq)
      exact congrArg (Expr.group 0) hsame
    | _ => cases hshape
  | unary hoperator hoperand ih =>
    cases h' with
    | unary hoperator' hoperand' =>
      simp only [Expr.form, Form.list.injEq, List.cons.injEq, and_true] at heq
      obtain ⟨hop, hsub⟩ := heq
      rw [Expr.relabel, Expr.relabel, erase_eq_of_form hoperator hoperator' hop,
        ih hoperand' hsub (hoperand.same_shape hoperand' hsub)]
      rfl
    | _ => cases hshape
  | binary hoperator hleft hright ihleft ihright =>
    cases h' with
    | binary hoperator' hleft' hright' =>
      simp only [Expr.form, Form.list.injEq, List.cons.injEq, and_true] at heq
      obtain ⟨hop, hl, hr⟩ := heq
      rw [Expr.relabel, Expr.relabel, erase_eq_of_form hoperator hoperator' hop,
        ihleft hleft' hl (hleft.same_shape hleft' hl),
        ihright hright' hr (hright.same_shape hright' hr)]
      rfl
    | _ => cases hshape
  | logical hoperator hleft hright ihleft ihright =>
    cases h' with
    | logical hoperator' hleft' hright' =>
      simp only [Expr.form, Form.list.injEq, List.cons.injEq, and_true] at heq
      obtain ⟨hop, hl, hr⟩ := heq
      rw [Expr.relabel, Expr.relabel, erase_eq_of_form hoperator hoperator' hop,
        ihleft hleft' hl (hleft.same_shape hleft' hl),
        ihright hright' hr (hright.same_shape hright' hr)]
      rfl
    | _ => cases hshape
  | assign hname hvalue ih =>
    cases h' with
    | assign hname' hvalue' =>
      simp only [Expr.form, Form.list.injEq, List.cons.injEq, and_true, true_and] at heq
      obtain ⟨htarget, hsub⟩ := heq
      rw [Expr.relabel, Expr.relabel, erase_eq_of_form hname hname' htarget,
        ih hvalue' hsub (hvalue.same_shape hvalue' hsub)]
      rfl
    | _ => cases hshape
  | property hobject hname ih =>
    cases h' with
    | property hobject' hname' =>
      simp only [Expr.form, Form.list.injEq, List.cons.injEq, and_true, true_and] at heq
      obtain ⟨hsub, htarget⟩ := heq
      rw [Expr.relabel, Expr.relabel, erase_eq_of_form hname hname' htarget,
        ih hobject' hsub (hobject.same_shape hobject' hsub)]
      rfl
    | _ => cases hshape
  | setProperty hobject hname hvalue ihobject ihvalue =>
    cases h' with
    | setProperty hobject' hname' hvalue' =>
      simp only [Expr.form, Form.list.injEq, List.cons.injEq, and_true, true_and] at heq
      obtain ⟨⟨hsub, htarget⟩, hv⟩ := heq
      rw [Expr.relabel, Expr.relabel, erase_eq_of_form hname hname' htarget,
        ihobject hobject' hsub (hobject.same_shape hobject' hsub),
        ihvalue hvalue' hv (hvalue.same_shape hvalue' hv)]
      rfl
    | _ => cases hshape
  | call hcallee hparen harguments ihcallee iharguments =>
    cases h' with
    | call hcallee' hparen' harguments' =>
      simp only [Expr.form, Form.list.injEq, List.cons.injEq, true_and] at heq
      obtain ⟨hsub, hforms⟩ := heq
      have hclosing := erase_eq_of_apt ")" hparen hparen' (by decide)
      rw [Expr.formAll_eq_map, Expr.formAll_eq_map] at hforms
      have hall := map_eq_of_forall harguments' (fun e he e' he' heq =>
        iharguments e he he' heq ((harguments e he).same_shape he' heq)) hforms
      rw [Expr.relabel, Expr.relabel, hclosing, Expr.relabelAll_eq_map, Expr.relabelAll_eq_map,
        hall, ihcallee hcallee' hsub (hcallee.same_shape hcallee' hsub)]
      rfl
    | _ => cases hshape

end Expr.Genuine

/-! ## 2. Statements -/

/-- The same for statements. -/
inductive Stmt.Genuine : Stmt → Prop where
  | expression {value} : value.Genuine → Genuine (.expression value)
  | print {value} : value.Genuine → Genuine (.print value)
  | var {name initializer} : Apt Token.Genuine [.identifier] name →
      (∀ e ∈ initializer, e.Genuine) → Genuine (.var name initializer)
  | block {body} : (∀ s ∈ body, Genuine s) → Genuine (.block body)
  | ifThen {condition thenBranch} : condition.Genuine → Genuine thenBranch →
      Genuine (.ifThen condition thenBranch)
  | ifElse {condition thenBranch elseBranch} : condition.Genuine → Genuine thenBranch →
      Genuine elseBranch → Genuine (.ifElse condition thenBranch elseBranch)
  | loop {condition body} : condition.Genuine → Genuine body → Genuine (.loop condition body)
  | function {routine} : Apt Token.Genuine [.identifier] routine.name →
      (∀ t ∈ routine.parameters, Apt Token.Genuine [.identifier] t) →
      (∀ s ∈ routine.body, Genuine s) → Genuine (.function routine)
  | ret {keyword value} : Apt Token.Genuine [.returnWord] keyword → (∀ e ∈ value, e.Genuine) →
      Genuine (.ret keyword value)
  | classDecl {name methods} : Apt Token.Genuine [.identifier] name →
      (∀ r ∈ methods, Apt Token.Genuine [.identifier] r.name) →
      (∀ r ∈ methods, ∀ t ∈ r.parameters, Apt Token.Genuine [.identifier] t) →
      (∀ r ∈ methods, ∀ s ∈ r.body, Genuine s) → Genuine (.classDecl name methods)

/-- The same for routines. -/
structure Routine.Genuine (r : Routine) : Prop where
  name : Apt Token.Genuine [.identifier] r.name
  parameters : ∀ t ∈ r.parameters, Apt Token.Genuine [.identifier] t
  body : ∀ s ∈ r.body, s.Genuine

theorem Stmt.Genuine.ofRoutine {r : Routine} (h : r.Genuine) : (Stmt.function r).Genuine :=
  .function h.name h.parameters h.body

theorem Stmt.Genuine.ofMethods {name : Token} {methods : List Routine}
    (hname : Apt Token.Genuine [.identifier] name) (h : ∀ r ∈ methods, r.Genuine) :
    (Stmt.classDecl name methods).Genuine :=
  .classDecl hname (fun r hr => (h r hr).name) (fun r hr => (h r hr).parameters)
    fun r hr => (h r hr).body

theorem Expr.formOption_eq_map (e : Option Expr) : Expr.formOption e = e.toList.map Expr.form := by
  cases e <;> rfl

theorem Stmt.formAll_eq_map (ss : List Stmt) : Stmt.formAll ss = ss.map Stmt.form := by
  induction ss with
  | nil => rfl
  | cons s ss ih => rw [Stmt.formAll, ih, List.map_cons]

theorem Stmt.relabelAll_eq_map (σ : Relabelling) (ss : List Stmt) :
    Stmt.relabelAll σ ss = ss.map (·.relabel σ) := by
  induction ss with
  | nil => rfl
  | cons s ss ih => rw [Stmt.relabelAll, ih, List.map_cons]

theorem Routine.formAll_eq_map (rs : List Routine) :
    Routine.formAll rs = rs.map (Routine.form "method") := by
  induction rs with
  | nil => rfl
  | cons r rs ih => rw [Routine.formAll, ih, List.map_cons]

theorem Routine.form_eq (head : String) (r : Routine) : r.form head =
    .list (.word head :: r.name.form :: .list (r.parameters.map Token.form) ::
      r.body.map Stmt.form) := by
  obtain ⟨name, parameters, body⟩ := r
  rw [Routine.form, Stmt.formAll_eq_map]

theorem Routine.relabel_eq (σ : Relabelling) (r : Routine) : r.relabel σ =
    ⟨σ.token r.name, r.parameters.map σ.token, r.body.map (·.relabel σ)⟩ := by
  obtain ⟨name, parameters, body⟩ := r
  rw [Routine.relabel, Stmt.relabelAll_eq_map]

theorem forall_mem_toList {α : Type} {P : α → Prop} {a : Option α} (h : ∀ b ∈ a, P b) :
    ∀ b ∈ a.toList, P b :=
  fun b hb => h b (Option.mem_toList.mp hb)

/-- The form of a routine is made of words if those of its statements are. -/
theorem Routine.valid_form {head : String} (hhead : isWord head = true) {r : Routine}
    (hname : Apt Token.Genuine [.identifier] r.name)
    (hparameters : ∀ t ∈ r.parameters, Apt Token.Genuine [.identifier] t)
    (hbody : ∀ s ∈ r.body, s.form.Valid) : (r.form head).Valid := by
  have hnames : (Form.list (r.parameters.map Token.form)).Valid :=
    .list (List.forall_mem_map.mpr fun t ht => (hparameters t ht).valid_name)
  rw [Routine.form_eq]
  exact .list_cons (.of_isWord hhead) (List.forall_mem_cons.mpr ⟨hname.valid_name,
    List.forall_mem_cons.mpr ⟨hnames, List.forall_mem_map.mpr hbody⟩⟩)

namespace Stmt.Genuine

/-- The forms of statements are made of words. -/
theorem valid_form {s : Stmt} (h : s.Genuine) : s.form.Valid := by
  induction h with
  | expression hvalue | print hvalue =>
    exact .list_cons (.of_isWord (by decide)) (by simpa using hvalue.valid_form)
  | var hname hinitializer =>
    refine .list_cons (.of_isWord (by decide)) (List.forall_mem_cons.mpr ⟨hname.valid_name, ?_⟩)
    rw [Expr.formOption_eq_map]
    exact List.forall_mem_map.mpr fun e he => (forall_mem_toList hinitializer e he).valid_form
  | block _ ih =>
    refine .list_cons (.of_isWord (by decide)) ?_
    rw [Stmt.formAll_eq_map]
    exact List.forall_mem_map.mpr ih
  | ifThen hcondition _ ih =>
    exact .list_cons (.of_isWord (by decide)) (by simpa using ⟨hcondition.valid_form, ih⟩)
  | ifElse hcondition _ _ ih ih' =>
    exact .list_cons (.of_isWord (by decide)) (by simpa using ⟨hcondition.valid_form, ih, ih'⟩)
  | loop hcondition _ ih =>
    exact .list_cons (.of_isWord (by decide)) (by simpa using ⟨hcondition.valid_form, ih⟩)
  | function hname hparameters _ ih =>
    exact Routine.valid_form (by decide) hname hparameters ih
  | ret _ hvalue =>
    refine .list_cons (.of_isWord (by decide)) ?_
    rw [Expr.formOption_eq_map]
    exact List.forall_mem_map.mpr fun e he => (forall_mem_toList hvalue e he).valid_form
  | classDecl hname hnames hparameters _ ih =>
    refine .list_cons (.of_isWord (by decide)) (List.forall_mem_cons.mpr ⟨hname.valid_name, ?_⟩)
    rw [Routine.formAll_eq_map]
    exact List.forall_mem_map.mpr fun r hr =>
      Routine.valid_form (by decide) (hnames r hr) (hparameters r hr) (ih r hr)

end Stmt.Genuine

/-- The forms of expressions that may be missing tell the expressions. -/
theorem Expr.formOption_inj {e e' : Option Expr} (h : ∀ x ∈ e, x.Genuine)
    (h' : ∀ x ∈ e', x.Genuine) (heq : Expr.formOption e = Expr.formOption e') :
    e.map (·.relabel .erase) = e'.map (·.relabel .erase) := by
  cases e with
  | none =>
    cases e' with
    | none => rfl
    | some e' => cases heq
  | some e =>
    cases e' with
    | none => cases heq
    | some e' => exact congrArg some ((h e rfl).form_inj (h' e' rfl) (List.cons.inj heq).1)

/-- The form of a routine tells the routine if those of its statements tell them. -/
theorem Routine.form_inj {head : String} {r r' : Routine}
    (hname : Apt Token.Genuine [.identifier] r.name)
    (hparameters : ∀ t ∈ r.parameters, Apt Token.Genuine [.identifier] t)
    (hbody : ∀ s ∈ r.body, ∀ {s' : Stmt}, s'.Genuine → s.form = s'.form →
      s.relabel .erase = s'.relabel .erase)
    (h' : r'.Genuine) (heq : r.form head = r'.form head) :
    r.relabel .erase = r'.relabel .erase := by
  rw [Routine.form_eq, Routine.form_eq] at heq
  simp only [Form.list.injEq, List.cons.injEq, true_and] at heq
  obtain ⟨hnames, hforms, hbodies⟩ := heq
  rw [Routine.relabel_eq, Routine.relabel_eq, erase_eq_of_form hname h'.name hnames,
    map_eq_of_forall h'.parameters
      (fun t ht _ ht' heq => erase_eq_of_form (hparameters t ht) ht' heq) hforms,
    map_eq_of_forall h'.body hbody hbodies]

/-- The form of a statement tells the statement, up to identities and lines. -/
theorem Stmt.Genuine.form_inj {s s' : Stmt} (h : s.Genuine) (h' : s'.Genuine)
    (heq : s.form = s'.form) : s.relabel .erase = s'.relabel .erase := by
  induction h generalizing s' with
  | expression hvalue =>
    cases h' with
    | expression hvalue' =>
      simp only [Stmt.form, Form.list.injEq, List.cons.injEq, and_true, true_and] at heq
      exact congrArg Stmt.expression (hvalue.form_inj hvalue' heq)
    | _ => simp [Stmt.form, Routine.form_eq] at heq
  | print hvalue =>
    cases h' with
    | print hvalue' =>
      simp only [Stmt.form, Form.list.injEq, List.cons.injEq, and_true, true_and] at heq
      exact congrArg Stmt.print (hvalue.form_inj hvalue' heq)
    | _ => simp [Stmt.form, Routine.form_eq] at heq
  | var hname hinitializer =>
    cases h' with
    | var hname' hinitializer' =>
      simp only [Stmt.form, Form.list.injEq, List.cons.injEq, true_and] at heq
      rw [Stmt.relabel, Stmt.relabel, erase_eq_of_form hname hname' heq.1,
        Expr.formOption_inj hinitializer hinitializer' heq.2]
    | _ => simp [Stmt.form, Routine.form_eq] at heq
  | block _ ih =>
    cases h' with
    | block hbody' =>
      simp only [Stmt.form, Form.list.injEq, List.cons.injEq, true_and,
        Stmt.formAll_eq_map] at heq
      rw [Stmt.relabel, Stmt.relabel, Stmt.relabelAll_eq_map, Stmt.relabelAll_eq_map,
        map_eq_of_forall hbody' ih heq]
    | _ => simp [Stmt.form, Routine.form_eq] at heq
  | ifThen hcondition _ ih =>
    cases h' with
    | ifThen hcondition' hthen' =>
      simp only [Stmt.form, Form.list.injEq, List.cons.injEq, and_true, true_and] at heq
      rw [Stmt.relabel, Stmt.relabel, hcondition.form_inj hcondition' heq.1, ih hthen' heq.2]
    | _ => simp [Stmt.form, Routine.form_eq] at heq
  | ifElse hcondition _ _ ihthen ihelse =>
    cases h' with
    | ifElse hcondition' hthen' helse' =>
      simp only [Stmt.form, Form.list.injEq, List.cons.injEq, and_true, true_and] at heq
      obtain ⟨hcond, hthen, helse⟩ := heq
      rw [Stmt.relabel, Stmt.relabel, hcondition.form_inj hcondition' hcond, ihthen hthen' hthen,
        ihelse helse' helse]
    | _ => simp [Stmt.form, Routine.form_eq] at heq
  | loop hcondition _ ih =>
    cases h' with
    | loop hcondition' hbody' =>
      simp only [Stmt.form, Form.list.injEq, List.cons.injEq, and_true, true_and] at heq
      rw [Stmt.relabel, Stmt.relabel, hcondition.form_inj hcondition' heq.1, ih hbody' heq.2]
    | _ => simp [Stmt.form, Routine.form_eq] at heq
  | function hname hparameters _ ih =>
    cases h' with
    | function hname' hparameters' hbody' =>
      exact congrArg Stmt.function
        (Routine.form_inj hname hparameters ih ⟨hname', hparameters', hbody'⟩ heq)
    | _ => simp [Stmt.form, Routine.form_eq] at heq
  | ret hkeyword hvalue =>
    cases h' with
    | ret hkeyword' hvalue' =>
      simp only [Stmt.form, Form.list.injEq, List.cons.injEq, true_and] at heq
      have htoken := erase_eq_of_apt "return" hkeyword hkeyword' (by decide)
      rw [Stmt.relabel, Stmt.relabel, htoken, Expr.formOption_inj hvalue hvalue' heq]
    | _ => simp [Stmt.form, Routine.form_eq] at heq
  | classDecl hname hnames hparameters _ ih =>
    cases h' with
    | @classDecl _ methods' hname' hnames' hparameters' hbodies' =>
      have hmethods' : ∀ r ∈ methods', r.Genuine :=
        fun r hr => ⟨hnames' r hr, hparameters' r hr, hbodies' r hr⟩
      simp only [Stmt.form, Form.list.injEq, List.cons.injEq, true_and,
        Routine.formAll_eq_map] at heq
      have hmethods := map_eq_of_forall hmethods' (fun r hr _ hr' heq =>
        Routine.form_inj (hnames r hr) (hparameters r hr) (ih r hr) hr' heq) heq.2
      rw [Stmt.relabel, Stmt.relabel, erase_eq_of_form hname hname' heq.1,
        Routine.relabelAll_eq_map, Routine.relabelAll_eq_map, hmethods]
    | _ => simp [Stmt.form, Routine.form_eq] at heq

end ScriptLang
