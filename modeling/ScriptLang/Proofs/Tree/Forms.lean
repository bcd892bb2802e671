/-
ScriptLang.Proofs.Tree.Forms — outlines are parenthesised forms.

A form is a word, or some forms between parentheses with single blanks between
them. If words are not empty and have no blanks and parentheses, then the text
of a form tells where it ends, whatever follows that does not go on with a word
(`Form.Valid.text_inj`): one form is read off the front of a text, and another
is not.

Every outline is the text of a form (`Stmt.toList_outline`), which has the head
word of the outline and the forms of its parts. So of trees that have one
outline the forms are equal, and what is left is to tell trees by their forms.
-/
import ScriptLang.Tree.Outline

namespace ScriptLang

/-! ## 1. Forms -/

/-- A word, or forms between parentheses. -/
inductive Form where
  | word (text : String)
  | list (parts : List Form)

mutual
/-- The text of a form. -/
def Form.text : Form → List Char
  | .word text => text.toList
  | .list parts => '(' :: (Form.textAll parts ++ [')'])

/-- The texts of forms with blanks between them. -/
def Form.textAll : List Form → List Char
  | [] => []
  | form :: rest => form.text ++ Form.textMore rest

/-- The texts of forms, with a blank before each. -/
def Form.textMore : List Form → List Char
  | [] => []
  | form :: rest => ' ' :: (form.text ++ Form.textMore rest)
end

/-- The characters that end a word. -/
def separators : List Char := [' ', '(', ')']

/-- All words are words: they are not empty, and no character of them would end them. -/
inductive Form.Valid : Form → Prop where
  | word {text} : text.toList ≠ [] → (∀ c ∈ text.toList, c ∉ separators) → Valid (.word text)
  | list {parts} : (∀ form ∈ parts, Valid form) → Valid (.list parts)

/-- Whether a text is a word. -/
def isWord (text : String) : Bool :=
  !text.toList.isEmpty && text.toList.all (· ∉ separators)

theorem Form.Valid.of_isWord {text : String} (h : isWord text = true) :
    (Form.word text).Valid := by
  obtain ⟨hne, hall⟩ := (Bool.and_eq_true _ _).mp h
  refine .word ?_ fun c hc => by simpa using List.all_eq_true.mp hall c hc
  simpa using hne

/-- What follows a form does not go on with a word. -/
def Separated (rest : List Char) : Prop :=
  ∀ c ∈ rest.head?, c ∈ separators

theorem separated_nil : Separated [] := by
  simp [Separated]

theorem separated_cons {c : Char} (hc : c ∈ separators) (rest : List Char) :
    Separated (c :: rest) := by
  simpa [Separated] using hc

theorem separated_textMore (parts : List Form) (rest : List Char) :
    Separated (Form.textMore parts ++ ')' :: rest) := by
  cases parts with
  | nil => exact separated_cons (by decide) rest
  | cons form parts => exact separated_cons (by decide) _

/-- Before what does not go on with a word, a word is what comes before the first separator. -/
theorem takeWhile_word {word rest : List Char} (hword : ∀ c ∈ word, c ∉ separators)
    (hrest : Separated rest) : (word ++ rest).takeWhile (· ∉ separators) = word := by
  rw [List.takeWhile_append_of_pos fun c hc => by simpa using hword c hc]
  cases rest with
  | nil => simp
  | cons c rest =>
    have hc : c ∈ separators := hrest c rfl
    rw [List.takeWhile_cons_of_neg (by simpa using hc), List.append_nil]

namespace Form

/-- The text of a form is not empty, and begins with no blank and no closing parenthesis. -/
theorem Valid.exists_cons {form : Form} (h : form.Valid) :
    ∃ c cs, form.text = c :: cs ∧ (c = '(' ∨ c ∉ separators) := by
  cases h with
  | @word w hne hword =>
    rw [Form.text]
    obtain ⟨c, cs, hcons⟩ := List.exists_cons_of_ne_nil hne
    exact ⟨c, cs, hcons, .inr (hword c (hcons ▸ List.mem_cons_self))⟩
  | list => exact ⟨'(', _, by rw [Form.text], .inl rfl⟩

theorem Valid.text_ne_close {form : Form} (h : form.Valid) (rest rest' : List Char) :
    form.text ++ rest ≠ ')' :: rest' := by
  obtain ⟨c, cs, hcons, hc⟩ := h.exists_cons
  intro heq
  rw [hcons] at heq
  obtain rfl : c = ')' := List.head_eq_of_cons_eq heq
  rcases hc with hc | hc
  · exact absurd hc (by decide)
  · exact hc (by decide)

/-- A text that begins with a form tells which one, and what follows it. -/
def Tells (form : Form) : Prop :=
  ∀ {form' : Form} {rest rest' : List Char}, form'.Valid → Separated rest → Separated rest' →
    form.text ++ rest = form'.text ++ rest' → form = form' ∧ rest = rest'

theorem tells_more {parts parts' : List Form} (htells : ∀ form ∈ parts, form.Tells)
    (hvalid : ∀ form ∈ parts', form.Valid) {rest rest' : List Char}
    (heq : textMore parts ++ ')' :: rest = textMore parts' ++ ')' :: rest') :
    parts = parts' ∧ rest = rest' := by
  induction parts generalizing parts' with
  | nil =>
    cases parts' with
    | nil => exact ⟨rfl, List.tail_eq_of_cons_eq heq⟩
    | cons form' parts' => exact absurd (List.head_eq_of_cons_eq heq) (by decide)
  | cons form parts ih =>
    cases parts' with
    | nil => exact absurd (List.head_eq_of_cons_eq heq) (by decide)
    | cons form' parts' =>
      rw [textMore, textMore, List.cons_append, List.cons_append, List.append_assoc,
        List.append_assoc] at heq
      have hform := List.tail_eq_of_cons_eq heq
      obtain ⟨rfl, hmore⟩ := htells form List.mem_cons_self (hvalid form' List.mem_cons_self)
        (separated_textMore parts rest) (separated_textMore parts' rest') hform
      obtain ⟨rfl, hrest⟩ := ih (fun form hform => htells form (List.mem_cons_of_mem _ hform))
        (fun form hform => hvalid form (List.mem_cons_of_mem _ hform)) hmore
      exact ⟨rfl, hrest⟩

theorem tells_all {parts parts' : List Form} (htells : ∀ form ∈ parts, form.Tells)
    (hvalid : ∀ form ∈ parts, form.Valid) (hvalid' : ∀ form ∈ parts', form.Valid)
    {rest rest' : List Char}
    (heq : textAll parts ++ ')' :: rest = textAll parts' ++ ')' :: rest') :
    parts = parts' ∧ rest = rest' := by
  cases parts with
  | nil =>
    cases parts' with
    | nil => exact ⟨rfl, List.tail_eq_of_cons_eq heq⟩
    | cons form' parts' =>
      rw [textAll, textAll, List.append_assoc] at heq
      exact absurd heq.symm ((hvalid' form' List.mem_cons_self).text_ne_close _ _)
  | cons form parts =>
    cases parts' with
    | nil =>
      rw [textAll, textAll, List.append_assoc] at heq
      exact absurd heq ((hvalid form List.mem_cons_self).text_ne_close _ _)
    | cons form' parts' =>
      -- with a blank before the first form there is one before each
      refine tells_more htells hvalid' ?_
      rw [textMore, textMore, List.cons_append, List.cons_append]
      exact congrArg (' ' :: ·) heq

/-- The text of a form tells the form, whatever follows that does not go on with a word. -/
theorem Valid.tells {form : Form} (h : form.Valid) : form.Tells := by
  induction h with
  | @word w hne hword =>
    intro form' rest rest' hvalid' hrest hrest' heq
    cases hvalid' with
    | @word w' hne' hword' =>
      rw [Form.text, Form.text] at heq
      have hwords : w.toList = w'.toList := by
        rw [← takeWhile_word hword hrest, heq, takeWhile_word hword' hrest']
      refine ⟨congrArg _ (String.toList_inj.mp hwords), ?_⟩
      rw [hwords] at heq
      exact List.append_cancel_left heq
    | list =>
      obtain ⟨c, cs, hcons⟩ := List.exists_cons_of_ne_nil hne
      rw [Form.text, Form.text, hcons] at heq
      have hc : c = '(' := List.head_eq_of_cons_eq heq
      exact absurd (hc ▸ hword c (hcons ▸ List.mem_cons_self)) (by decide)
  | @list parts hparts ih =>
    intro form' rest rest' hvalid' hrest hrest' heq
    cases hvalid' with
    | @word w' hne' hword' =>
      obtain ⟨c, cs, hcons⟩ := List.exists_cons_of_ne_nil hne'
      rw [Form.text, Form.text, hcons] at heq
      have hc : '(' = c := List.head_eq_of_cons_eq heq
      exact absurd (hc ▸ hword' c (hcons ▸ List.mem_cons_self)) (by decide)
    | @list parts' hparts' =>
      rw [Form.text, Form.text, List.cons_append, List.cons_append, List.append_assoc,
        List.append_assoc] at heq
      have hinner := List.tail_eq_of_cons_eq heq
      obtain ⟨rfl, hrest⟩ := tells_all ih hparts hparts' hinner
      exact ⟨rfl, hrest⟩

/-- Forms with one text are equal. -/
theorem Valid.text_inj {form form' : Form} (h : form.Valid) (h' : form'.Valid)
    (heq : form.text = form'.text) : form = form' :=
  (h.tells h' separated_nil separated_nil (congrArg (· ++ []) heq)).1

end Form

/-! ## 2. The forms of trees -/

/-- The form of a constant. -/
def Constant.form (value : Constant) : Form := .word value.outline

/-- The form of a token. -/
def Token.form (t : Token) : Form := .word t.lexeme

mutual
/-- The form of an expression. -/
def Expr.form : Expr → Form
  | .literal _ value => value.form
  | .group _ inner => .list [.word "group", inner.form]
  | .unary _ operator operand => .list [operator.form, operand.form]
  | .binary _ left operator right => .list [operator.form, left.form, right.form]
  | .logical _ left operator right => .list [operator.form, left.form, right.form]
  | .read _ name => name.form
  | .assign _ name value => .list [.word "=", name.form, value.form]
  | .call _ callee _ arguments => .list (.word "call" :: callee.form :: Expr.formAll arguments)
  | .property _ object name => .list [.word ".", object.form, name.form]
  | .setProperty _ object name value =>
    .list [.word "=", .list [.word ".", object.form, name.form], value.form]
  | .self _ _ => .word "this"

/-- The forms of some expressions. -/
def Expr.formAll : List Expr → List Form
  | [] => []
  | e :: rest => e.form :: Expr.formAll rest
end

/-- The forms of an expression that may be missing: one or none. -/
def Expr.formOption : Option Expr → List Form
  | some e => [e.form]
  | none => []

mutual
/-- The form of a statement. -/
def Stmt.form : Stmt → Form
  | .expression value => .list [.word ";", value.form]
  | .print value => .list [.word "print", value.form]
  | .var name initializer => .list (.word "var" :: name.form :: Expr.formOption initializer)
  | .block body => .list (.word "block" :: Stmt.formAll body)
  | .ifThen condition thenBranch => .list [.word "if", condition.form, thenBranch.form]
  | .ifElse condition thenBranch elseBranch =>
    .list [.word "if", condition.form, thenBranch.form, elseBranch.form]
  | .loop condition body => .list [.word "while", condition.form, body.form]
  | .function routine => routine.form "fun"
  | .ret _ value => .list (.word "return" :: Expr.formOption value)
  | .classDecl name methods => .list (.word "class" :: name.form :: Routine.formAll methods)

/-- The forms of some statements. -/
def Stmt.formAll : List Stmt → List Form
  | [] => []
  | s :: rest => s.form :: Stmt.formAll rest

/-- The form of a routine, under a head word. -/
def Routine.form (head : String) : Routine → Form
  | ⟨name, parameters, body⟩ =>
    .list (.word head :: name.form :: .list (parameters.map Token.form) :: Stmt.formAll body)

/-- The forms of some methods. -/
def Routine.formAll : List Routine → List Form
  | [] => []
  | r :: rest => r.form "method" :: Routine.formAll rest
end

/-! ## 3. Outlines -/

/-- Words with blanks between them. -/
theorem textAll_words (ts : List Token) :
    Form.textAll (ts.map Token.form) = (" ".intercalate (ts.map Token.lexeme)).toList := by
  have hmore : ∀ (t : Token) (ts : List Token),
      t.lexeme.toList ++ Form.textMore (ts.map Token.form) =
      (" ".intercalate ((t :: ts).map Token.lexeme)).toList := by
    intro t ts
    induction ts generalizing t with
    | nil => simp [Form.textMore]
    | cons t' ts ih =>
      have hjoined := ih t'
      simp only [List.map_cons, String.intercalate_cons_cons, String.toList_append] at hjoined ⊢
      rw [Form.textMore, Token.form, Form.text, hjoined]
      simp
  cases ts with
  | nil => simp [Form.textAll]
  | cons t ts => exact hmore t ts

mutual
/-- The outline of an expression is the text of its form. -/
theorem Expr.toList_outline : ∀ e : Expr, e.outline.toList = e.form.text
  | .literal _ value => rfl
  | .read _ name => rfl
  | .self _ _ => rfl
  | .group _ inner => by
      simp [Expr.outline, Expr.form, Form.text, Form.textAll, Form.textMore, inner.toList_outline]
  | .unary _ operator operand => by
      simp [Expr.outline, Expr.form, Token.form, Form.text, Form.textAll, Form.textMore,
        operand.toList_outline]
  | .binary _ left operator right => by
      simp [Expr.outline, Expr.form, Token.form, Form.text, Form.textAll, Form.textMore,
        left.toList_outline, right.toList_outline]
  | .logical _ left operator right => by
      simp [Expr.outline, Expr.form, Token.form, Form.text, Form.textAll, Form.textMore,
        left.toList_outline, right.toList_outline]
  | .assign _ name value => by
      simp [Expr.outline, Expr.form, Token.form, Form.text, Form.textAll, Form.textMore,
        value.toList_outline]
  | .call _ callee _ arguments => by
      simp [Expr.outline, Expr.form, Form.text, Form.textAll, Form.textMore,
        callee.toList_outline, Expr.toList_outlineAll arguments]
  | .property _ object name => by
      simp [Expr.outline, Expr.form, Token.form, Form.text, Form.textAll, Form.textMore,
        object.toList_outline]
  | .setProperty _ object name value => by
      simp [Expr.outline, Expr.form, Token.form, Form.text, Form.textAll, Form.textMore,
        object.toList_outline, value.toList_outline]

theorem Expr.toList_outlineAll : ∀ es : List Expr,
    (Expr.outlineAll es).toList = Form.textMore (Expr.formAll es)
  | [] => rfl
  | e :: rest => by
      simp [Expr.outlineAll, Expr.formAll, Form.textMore, e.toList_outline,
        Expr.toList_outlineAll rest]
end

theorem Expr.toList_outlineOption (e : Option Expr) :
    (Expr.outlineOption e).toList = Form.textMore (Expr.formOption e) := by
  cases e with
  | none => rfl
  | some e => simp [Expr.outlineOption, Expr.formOption, Form.textMore, e.toList_outline]

mutual
/-- The outline of a statement is the text of its form. -/
theorem Stmt.toList_outline : ∀ s : Stmt, s.outline.toList = s.form.text
  | .expression value => by
      simp [Stmt.outline, Stmt.form, Form.text, Form.textAll, Form.textMore, value.toList_outline]
  | .print value => by
      simp [Stmt.outline, Stmt.form, Form.text, Form.textAll, Form.textMore, value.toList_outline]
  | .var name initializer => by
      simp [Stmt.outline, Stmt.form, Token.form, Form.text, Form.textAll, Form.textMore,
        Expr.toList_outlineOption initializer]
  | .block body => by
      simp [Stmt.outline, Stmt.form, Form.text, Form.textAll, Stmt.toList_outlineAll body]
  | .ifThen condition thenBranch => by
      simp [Stmt.outline, Stmt.form, Form.text, Form.textAll, Form.textMore,
        condition.toList_outline, thenBranch.toList_outline]
  | .ifElse condition thenBranch elseBranch => by
      simp [Stmt.outline, Stmt.form, Form.text, Form.textAll, Form.textMore,
        condition.toList_outline, thenBranch.toList_outline, elseBranch.toList_outline]
  | .loop condition body => by
      simp [Stmt.outline, Stmt.form, Form.text, Form.textAll, Form.textMore,
        condition.toList_outline, body.toList_outline]
  | .function routine => routine.toList_outline "fun"
  | .ret _ value => by
      simp [Stmt.outline, Stmt.form, Form.text, Form.textAll, Expr.toList_outlineOption value]
  | .classDecl name methods => by
      simp [Stmt.outline, Stmt.form, Token.form, Form.text, Form.textAll, Form.textMore,
        Routine.toList_outlineAll methods]

theorem Stmt.toList_outlineAll : ∀ ss : List Stmt,
    (Stmt.outlineAll ss).toList = Form.textMore (Stmt.formAll ss)
  | [] => rfl
  | s :: rest => by
      simp [Stmt.outlineAll, Stmt.formAll, Form.textMore, s.toList_outline,
        Stmt.toList_outlineAll rest]

theorem Routine.toList_outline : ∀ (r : Routine) (head : String),
    (r.outline head).toList = (r.form head).text
  | ⟨name, parameters, body⟩, head => by
      simp [Routine.outline, Routine.form, Token.form, Form.text, Form.textAll, Form.textMore,
        textAll_words, Stmt.toList_outlineAll body]

theorem Routine.toList_outlineAll : ∀ rs : List Routine,
    (Routine.outlineAll rs).toList = Form.textMore (Routine.formAll rs)
  | [] => rfl
  | r :: rest => by
      simp [Routine.outlineAll, Routine.formAll, Form.textMore, r.toList_outline "method",
        Routine.toList_outlineAll rest]
end

end ScriptLang
