/-
ScriptLang.Proofs.Grammar.Strata — expressions keep their words and their
order.

Read in order, a tree gives back the words it was read from (`Expr.inOrder`):
tokens that it keeps, such as operators and names, are given back themselves,
and of the others their kind and literal value. What it does not give back are
lines and spellings of punctuation, which it has no use for.

A tree that was read is stratified (`Stratified`). Every tree has a rank, from
assignments, which bind loosest, to calls, names and literals. An operator has
on its left a tree of at least its own rank and on its right one of a higher
rank, so operators of one rank associate to the left; the value of an assignment
may have any rank, so assignments associate to the right.

Conversely a stratified tree is the one that is read from its words, whatever
comes after them that does not go on with an expression. Both directions go
through phrases, where the strata are the sorts (`Stratum`).
-/
import ScriptLang.Proofs.Grammar.Completeness
import ScriptLang.Proofs.Grammar.Shift
import ScriptLang.Proofs.Grammar.Trees
import ScriptLang.Proofs.Token.Pieces
import ScriptLang.Proofs.Tree.Formed
import ScriptLang.Proofs.Tree.Relabel

namespace ScriptLang

/-! ## 1. The words of a tree -/

/-- A word as a tree remembers it: a token that it keeps, or else a kind and a literal value. -/
inductive Mark where
  | token (t : Token)
  | word (kind : Kind) (literal : Option Literal)

/-- A token is the word that is remembered. -/
def Mark.Fits : Mark → Token → Prop
  | .token kept, t => t = kept
  | .word kind literal, t => t.kind = kind ∧ t.literal = literal

/-- The word of a constant. -/
def Constant.mark : Constant → Mark
  | .number x => .word .number (some (.number x))
  | .text s => .word .string (some (.text s))
  | .bool true => .word .trueWord none
  | .bool false => .word .falseWord none
  | .nil => .word .nilWord none

mutual
/-- The words of an expression, from left to right. -/
def Expr.inOrder : Expr → List Mark
  | .literal _ value => [value.mark]
  | .group _ inner => .word .leftParen none :: (inner.inOrder ++ [.word .rightParen none])
  | .unary _ operator operand => .token operator :: operand.inOrder
  | .binary _ left operator right => left.inOrder ++ .token operator :: right.inOrder
  | .logical _ left operator right => left.inOrder ++ .token operator :: right.inOrder
  | .read _ name => [.token name]
  | .assign _ name value => .token name :: .word .equal none :: value.inOrder
  | .call _ callee paren arguments =>
    callee.inOrder ++ .word .leftParen none :: (Expr.inOrderAll arguments ++ [.token paren])
  | .property _ object name => object.inOrder ++ [.word .dot none, .token name]
  | .setProperty _ object name value =>
    object.inOrder ++ .word .dot none :: .token name :: .word .equal none :: value.inOrder
  | .self _ keyword => [.token keyword]

/-- The words of arguments, with commas between them. -/
def Expr.inOrderAll : List Expr → List Mark
  | [] => []
  | e :: rest => e.inOrder ++ Expr.inOrderMore rest

/-- The words of arguments, each with a comma before it. -/
def Expr.inOrderMore : List Expr → List Mark
  | [] => []
  | e :: rest => .word .comma none :: (e.inOrder ++ Expr.inOrderMore rest)
end

/-- Some tokens begin with the given words, and the others are the rest. -/
def Spells : List Mark → List Token → List Token → Prop
  | [], ts, rest => ts = rest
  | mark :: marks, ts, rest => ∃ t ts', ts = t :: ts' ∧ mark.Fits t ∧ Spells marks ts' rest

theorem Spells.nil {ts : List Token} : Spells [] ts ts := rfl

theorem spells_cons {mark : Mark} {marks : List Mark} {t : Token} {ts rest : List Token} :
    Spells (mark :: marks) (t :: ts) rest ↔ mark.Fits t ∧ Spells marks ts rest := by
  constructor
  · rintro ⟨_, _, heq, h⟩
    cases heq
    exact h
  · exact fun h => ⟨t, ts, rfl, h⟩

theorem Spells.cons {mark : Mark} {marks : List Mark} {t : Token} {ts rest : List Token}
    (hfits : mark.Fits t) (h : Spells marks ts rest) : Spells (mark :: marks) (t :: ts) rest :=
  spells_cons.mpr ⟨hfits, h⟩

/-- The words of two parts are those of the first and then those of the second. -/
theorem spells_append {marks marks' : List Mark} {ts rest : List Token} :
    Spells (marks ++ marks') ts rest ↔ ∃ mid, Spells marks ts mid ∧ Spells marks' mid rest := by
  induction marks generalizing ts with
  | nil =>
    constructor
    · exact fun h => ⟨ts, rfl, h⟩
    · rintro ⟨mid, rfl, h⟩
      exact h
  | cons mark marks ih =>
    constructor
    · rintro ⟨t, ts', rfl, hfits, h⟩
      obtain ⟨mid, hfirst, hsecond⟩ := ih.mp h
      exact ⟨mid, .cons hfits hfirst, hsecond⟩
    · rintro ⟨mid, ⟨t, ts', rfl, hfits, hfirst⟩, hsecond⟩
      exact .cons hfits (ih.mpr ⟨mid, hfirst, hsecond⟩)

theorem Spells.append {marks marks' : List Mark} {ts mid rest : List Token}
    (h : Spells marks ts mid) (h' : Spells marks' mid rest) : Spells (marks ++ marks') ts rest :=
  spells_append.mpr ⟨mid, h, h'⟩

/-! ## 2. Ranks -/

/-- How tightly a binary operator binds. -/
def Kind.precedence : Kind → Nat
  | .orWord => 1
  | .andWord => 2
  | .bangEqual | .equalEqual => 3
  | .greater | .greaterEqual | .less | .lessEqual => 4
  | .minus | .plus => 5
  | .star | .slash => 6
  | _ => 0

/-- The rank of what can be called and have properties. -/
def callRank : Nat := 8

/-- How tightly the outermost part of an expression binds: assignments loosest, then binary
operators, unary operators, and at last calls, properties and what stands by itself. -/
def Expr.rank : Expr → Nat
  | .assign .. => 0
  | .setProperty .. => 0
  | .logical _ _ operator _ => operator.kind.precedence
  | .binary _ _ operator _ => operator.kind.precedence
  | .unary .. => 7
  | _ => callRank

/-- Every operand binds as tightly as its place demands, operators and names are of their kinds,
and no call has too many arguments. -/
inductive Expr.Stratified : Expr → Prop where
  | literal {id value} : Stratified (.literal id value)
  | self {id} {keyword : Token} : keyword.kind = .thisWord → Stratified (.self id keyword)
  | read {id} {name : Token} : name.kind = .identifier → Stratified (.read id name)
  | group {id inner} : Stratified inner → Stratified (.group id inner)
  | unary {id} {operator : Token} {operand} : operator.kind ∈ [.bang, .minus] →
      Stratified operand → 7 ≤ operand.rank → Stratified (.unary id operator operand)
  | binary {id left} {operator : Token} {right} : operator.kind ∈ binaryKinds →
      Stratified left → operator.kind.precedence ≤ left.rank →
      Stratified right → operator.kind.precedence < right.rank →
      Stratified (.binary id left operator right)
  | logical {id left} {operator : Token} {right} : operator.kind ∈ [.andWord, .orWord] →
      Stratified left → operator.kind.precedence ≤ left.rank →
      Stratified right → operator.kind.precedence < right.rank →
      Stratified (.logical id left operator right)
  | assign {id} {name : Token} {value} : name.kind = .identifier → Stratified value →
      Stratified (.assign id name value)
  | setProperty {id object} {name : Token} {value} : Stratified object → object.rank = callRank →
      name.kind = .identifier → Stratified value → Stratified (.setProperty id object name value)
  | call {id callee} {paren : Token} {arguments} : Stratified callee → callee.rank = callRank →
      paren.kind = .rightParen → (∀ e ∈ arguments, Stratified e) → arguments.length ≤ maxArity →
      Stratified (.call id callee paren arguments)
  | property {id object} {name : Token} : Stratified object → object.rank = callRank →
      name.kind = .identifier → Stratified (.property id object name)

namespace Grammar

open Phrase

/-- The operators of a level have one rank, and build a tree of this rank from operands that bind
tightly enough. -/
structure Level.OfRank (rank : Nat) (level : Level) : Prop where
  precedence : ∀ kind ∈ level.operators, kind.precedence = rank
  inOrder : ∀ id left op right,
    (level.build id left op right).inOrder = left.inOrder ++ .token op :: right.inOrder
  rank_eq : ∀ id left op right, (level.build id left op right).rank = op.kind.precedence
  stratified : ∀ id left op right, op.kind ∈ level.operators → left.Stratified →
    op.kind.precedence ≤ left.rank → right.Stratified → op.kind.precedence < right.rank →
    (level.build id left op right).Stratified

theorem Level.OfRank.binary {rank : Nat} {operators : List Kind}
    (hrank : ∀ kind ∈ operators, kind.precedence = rank)
    (hkinds : ∀ kind ∈ operators, kind ∈ binaryKinds) :
    Level.OfRank rank ⟨operators, .binary⟩ where
  precedence := hrank
  inOrder _ _ _ _ := rfl
  rank_eq _ _ _ _ := rfl
  stratified _ _ _ _ hop := .binary (hkinds _ hop)

theorem Level.OfRank.logical {rank : Nat} {operators : List Kind}
    (hrank : ∀ kind ∈ operators, kind.precedence = rank)
    (hkinds : ∀ kind ∈ operators, kind ∈ [.andWord, .orWord]) :
    Level.OfRank rank ⟨operators, .logical⟩ where
  precedence := hrank
  inOrder _ _ _ _ := rfl
  rank_eq _ _ _ _ := rfl
  stratified _ _ _ _ hop := .logical (hkinds _ hop)

/-- The levels have the ranks from one on. -/
theorem levels_ofRank {k : Nat} {level : Level} {tighter : List Level}
    (h : level :: tighter = levels.drop k) :
    k < 6 ∧ level.OfRank (k + 1) ∧ tighter = levels.drop (k + 1) := by
  have hlength := congrArg List.length h
  have hk : k < 6 := by
    simp only [List.length_cons, List.length_drop, levels, List.length_nil] at hlength
    omega
  refine ⟨hk, ?_, by rw [← List.drop_drop, ← h, List.drop_one, List.tail_cons]⟩
  rcases k with _ | _ | _ | _ | _ | _ | k
  · cases h
    exact .logical (by decide) (by decide)
  · cases h
    exact .logical (by decide) (by decide)
  iterate 4
    · cases h
      exact .binary (by decide) (by decide)
  · omega

/-! ## 3. What is read is spelled and stratified -/

/-- A token has a value exactly if it is a literal. -/
abbrev Valued (t : Token) : Prop := Literate t.kind t.literal

/-- A token that is not a literal is remembered by its kind. -/
theorem fits_word {t : Token} {kind : Kind} (h : Valued t) (hkind : t.kind = kind)
    (hliteral : kind ∉ [.number, .string]) : (Mark.word kind none).Fits t := by
  refine ⟨hkind, ?_⟩
  rw [Valued, hkind] at h
  generalize t.literal = literal at h
  cases h with
  | number | text => exact absurd (by decide) hliteral
  | none => rfl

/-- A number or a text is remembered by its kind and its value. -/
theorem fits_constant {t : Token} (h : Valued t) (hkind : t.kind ∈ [.number, .string]) :
    (Constant.ofLiteral t.literal).mark.Fits t := by
  obtain ⟨kind, lexeme, literal, line⟩ := t
  cases h with
  | number | text => exact ⟨rfl, rfl⟩
  | none hvalueless => exact absurd hkind hvalueless

mutual
theorem Phrase.Expression.spelled {ts n e rest n'} : Expression ts n e rest n' →
    Good Valued ts → Good Valued rest ∧ Spells e.inOrder ts rest ∧ e.Stratified
  | .plain h, hgood => by
      obtain ⟨hrest, hspells, hstratified, -⟩ := h.spelled (k := 0) rfl (by decide) hgood
      exact ⟨hrest, hspells, hstratified⟩
  | .assign hname hequals h, hgood => by
      obtain ⟨hrest, hspells, hvalue⟩ := h.spelled hgood.tail.tail
      have hmark := fits_word hgood.tail.head hequals (by decide)
      exact ⟨hrest, .cons rfl (.cons hmark hspells), .assign hname hvalue⟩
  | .setProperty hcall hdot hname hequals h, hgood => by
      obtain ⟨hmid, hbefore, hobject, hrank⟩ := hcall.spelled hgood
      obtain ⟨hrest, hspells, hvalue⟩ := h.spelled hmid.tail.tail.tail
      have hdotMark := fits_word hmid.head hdot (by decide)
      have hmark := fits_word hmid.tail.tail.head hequals (by decide)
      exact ⟨hrest, hbefore.append (.cons hdotMark (.cons rfl (.cons hmark hspells))),
        .setProperty hobject hrank hname hvalue⟩

theorem Phrase.Joined.spelled {ls ts n e rest n'} {k : Nat} : Joined ls ts n e rest n' →
    ls = levels.drop k → k ≤ 6 → Good Valued ts →
    Good Valued rest ∧ Spells e.inOrder ts rest ∧ e.Stratified ∧ k < e.rank
  | .operand h, _, _, hgood => by
      obtain ⟨hrest, hspells, hstratified, hrank⟩ := h.spelled hgood
      exact ⟨hrest, hspells, hstratified, by omega⟩
  | .level hleft hmore, hls, _, hgood => by
      obtain ⟨hk, hlevel, htighter⟩ := levels_ofRank hls
      obtain ⟨hmid, hspells, hoperand, hrank⟩ := hleft.spelled htighter hk hgood
      obtain ⟨hrest, hstratified, hrank', marks, hmarks, hlater⟩ :=
        hmore.spelled hlevel hk htighter hmid hoperand (Nat.lt_of_succ_lt hrank)
      rw [hmarks]
      exact ⟨hrest, hspells.append hlater, hstratified, hrank'⟩

theorem Phrase.More.spelled {level tighter left ts n e rest n'} {k : Nat} :
    More level tighter left ts n e rest n' → level.OfRank (k + 1) → k < 6 →
    tighter = levels.drop (k + 1) → Good Valued ts → left.Stratified → k < left.rank →
    Good Valued rest ∧ e.Stratified ∧ k < e.rank ∧
      ∃ marks, e.inOrder = left.inOrder ++ marks ∧ Spells marks ts rest
  | .done, _, _, _, hgood, hleft, hrank => ⟨hgood, hleft, hrank, [], by simp, .nil⟩
  | @More.more _ _ _ op _ _ right _ n₁ _ _ _ hop hright hmore, hlevel, hk, htighter, hgood,
      hleft, hrank => by
      obtain ⟨hmid, hspells, hoperand, hrank'⟩ := hright.spelled htighter hk hgood.tail
      have hprecedence := hlevel.precedence _ hop
      have hjoined := hlevel.stratified n₁ left op right hop hleft (by omega) hoperand (by omega)
      obtain ⟨hrest, hstratified, hrank'', marks, hmarks, hlater⟩ :=
        hmore.spelled hlevel hk htighter hmid hjoined (by rw [hlevel.rank_eq]; omega)
      refine ⟨hrest, hstratified, hrank'', .token op :: (right.inOrder ++ marks), ?_,
        .cons rfl (hspells.append hlater)⟩
      rw [hmarks, hlevel.inOrder, List.append_assoc, List.cons_append]

theorem Phrase.Unary.spelled {ts n e rest n'} : Unary ts n e rest n' → Good Valued ts →
    Good Valued rest ∧ Spells e.inOrder ts rest ∧ e.Stratified ∧ 7 ≤ e.rank
  | .operator hop h, hgood => by
      obtain ⟨hrest, hspells, hoperand, hrank⟩ := h.spelled hgood.tail
      exact ⟨hrest, .cons rfl hspells, .unary hop hoperand hrank, Nat.le_refl 7⟩
  | .call h, hgood => by
      obtain ⟨hrest, hspells, hstratified, hrank⟩ := h.spelled hgood
      exact ⟨hrest, hspells, hstratified, by rw [hrank, callRank]; omega⟩

theorem Phrase.Call.spelled {ts n e rest n'} : Call ts n e rest n' → Good Valued ts →
    Good Valued rest ∧ Spells e.inOrder ts rest ∧ e.Stratified ∧ e.rank = callRank
  | .mk hprimary hcalls, hgood => by
      obtain ⟨hmid, hspells, hcallee, hrank⟩ := hprimary.spelled hgood
      obtain ⟨hrest, hstratified, hrank', marks, hmarks, hlater⟩ :=
        hcalls.spelled hmid hcallee hrank
      rw [hmarks]
      exact ⟨hrest, hspells.append hlater, hstratified, hrank'⟩

theorem Phrase.Calls.spelled {callee ts n e rest n'} : Calls callee ts n e rest n' →
    Good Valued ts → callee.Stratified → callee.rank = callRank →
    Good Valued rest ∧ e.Stratified ∧ e.rank = callRank ∧
      ∃ marks, e.inOrder = callee.inOrder ++ marks ∧ Spells marks ts rest
  | .done, hgood, hcallee, hrank => ⟨hgood, hcallee, hrank, [], by simp, .nil⟩
  | .call hopening hargs hmany hparen h, hgood, hcallee, hrank => by
      obtain ⟨hmid, hspells, harguments⟩ := hargs.spelled hgood.tail
      obtain ⟨hrest, hstratified, hrank', marks, hmarks, hlater⟩ :=
        h.spelled hmid.tail (.call hcallee hrank hparen harguments hmany) rfl
      have hmark := fits_word hgood.head hopening (by decide)
      refine ⟨hrest, hstratified, hrank', _, by rw [hmarks, Expr.inOrder, List.append_assoc], ?_⟩
      rw [List.cons_append, List.append_assoc]
      exact .cons hmark (hspells.append (.cons rfl hlater))
  | .property hdot hname h, hgood, hcallee, hrank => by
      obtain ⟨hrest, hstratified, hrank', marks, hmarks, hlater⟩ :=
        h.spelled hgood.tail.tail (.property hcallee hrank hname) rfl
      have hmark := fits_word hgood.head hdot (by decide)
      refine ⟨hrest, hstratified, hrank', _, by rw [hmarks, Expr.inOrder, List.append_assoc], ?_⟩
      exact .cons hmark (.cons rfl hlater)

theorem Phrase.Arguments.spelled {ts n es rest n'} : Arguments ts n es rest n' →
    Good Valued ts → Good Valued rest ∧ Spells (Expr.inOrderAll es) ts rest ∧
      ∀ e ∈ es, e.Stratified
  | .none, hgood => ⟨hgood, .nil, by simp⟩
  | .some h hmore, hgood => by
      obtain ⟨hmid, hspells, hfirst⟩ := h.spelled hgood
      obtain ⟨hrest, hlater, hall⟩ := hmore.spelled hmid
      exact ⟨hrest, hspells.append hlater, List.forall_mem_cons.mpr ⟨hfirst, hall⟩⟩

theorem Phrase.MoreArguments.spelled {ts n es rest n'} : MoreArguments ts n es rest n' →
    Good Valued ts → Good Valued rest ∧ Spells (Expr.inOrderMore es) ts rest ∧
      ∀ e ∈ es, e.Stratified
  | .done, hgood => ⟨hgood, .nil, by simp⟩
  | .more hcomma h hmore, hgood => by
      obtain ⟨hmid, hspells, hfirst⟩ := h.spelled hgood.tail
      obtain ⟨hrest, hlater, hall⟩ := hmore.spelled hmid
      have hmark := fits_word hgood.head hcomma (by decide)
      exact ⟨hrest, .cons hmark (hspells.append hlater), List.forall_mem_cons.mpr ⟨hfirst, hall⟩⟩

theorem Phrase.Primary.spelled {ts n e rest n'} : Primary ts n e rest n' → Good Valued ts →
    Good Valued rest ∧ Spells e.inOrder ts rest ∧ e.Stratified ∧ e.rank = callRank
  | .falseWord hkind, hgood =>
      ⟨hgood.tail, .cons (fits_word hgood.head hkind (by decide)) .nil, .literal, rfl⟩
  | .trueWord hkind, hgood =>
      ⟨hgood.tail, .cons (fits_word hgood.head hkind (by decide)) .nil, .literal, rfl⟩
  | .nilWord hkind, hgood =>
      ⟨hgood.tail, .cons (fits_word hgood.head hkind (by decide)) .nil, .literal, rfl⟩
  | .literal hkind, hgood => ⟨hgood.tail, .cons (fits_constant hgood.head hkind) .nil, .literal, rfl⟩
  | .self hkind, hgood => ⟨hgood.tail, .cons rfl .nil, .self hkind, rfl⟩
  | .read hkind, hgood => ⟨hgood.tail, .cons rfl .nil, .read hkind, rfl⟩
  | .group hopening h hclosing, hgood => by
      obtain ⟨hrest, hspells, hinner⟩ := h.spelled hgood.tail
      have hopen := fits_word hgood.head hopening (by decide)
      have hclose := fits_word hrest.head hclosing (by decide)
      exact ⟨hrest.tail, .cons hopen (hspells.append (.cons hclose .nil)), .group hinner, rfl⟩
end

/-! ## 4. What is spelled is a phrase -/

/-- Operators of a level after operators of the level. -/
theorem Phrase.More.trans {level tighter left ts n e mid n₁ e' rest n'} :
    More level tighter left ts n e mid n₁ → More level tighter e mid n₁ e' rest n' →
    More level tighter left ts n e' rest n'
  | .done, hlater => hlater
  | .more hop hright hmore, hlater => .more hop hright (hmore.trans hlater)

/-- The sort of the phrases whose trees have at least a given rank. -/
def Stratum : Nat → Extent Expr
  | 0 => Expression
  | k + 1 => if k < 7 then Joined (levels.drop k) else Call

theorem stratum_joined {k : Nat} (hk : k < 7) : Stratum (k + 1) = Joined (levels.drop k) :=
  if_pos hk

theorem stratum_callRank : Stratum callRank = Call := rfl

/-- What binds more tightly may stand for what binds less tightly. -/
theorem Stratum.loosen {k k' : Nat} {ts n e rest n'} (h : Stratum k' ts n e rest n')
    (hle : k ≤ k') : Stratum k ts n e rest n' := by
  induction hle with
  | refl => exact h
  | @step k' _ ih =>
    refine ih ?_
    rcases k' with _ | k'
    · exact .plain h
    rcases Nat.lt_trichotomy k' 6 with hlt | rfl | hlt
    · rw [stratum_joined (by omega)] at h ⊢
      rw [List.drop_eq_getElem_cons hlt]
      exact .level h .done
    · exact .operand (.call h)
    · rw [Stratum, if_neg (by omega)] at h ⊢
      exact h

/-- The phrase of a tree is read from its words, wherever they stand. -/
def Regained (e : Expr) : Prop :=
  ∀ ts rest n, Spells e.inOrder ts rest →
    ∃ e' n', e'.relabel .unnumber = e.relabel .unnumber ∧ Stratum e.rank ts n e' rest n'

/-- The word of a constant gives the constant. -/
theorem primary_of_fits {value : Constant} {t : Token} {ts : List Token} {n : Nat}
    (h : value.mark.Fits t) : Primary (t :: ts) n (.literal n value) ts (n + 1) := by
  rcases value with x | s | (_ | _) | _
  · have hvalue : Constant.ofLiteral t.literal = .number x := by rw [h.2]; rfl
    exact hvalue ▸ .literal (by rw [h.1]; decide)
  · have hvalue : Constant.ofLiteral t.literal = .text s := by rw [h.2]; rfl
    exact hvalue ▸ .literal (by rw [h.1]; decide)
  · exact .falseWord h.1
  · exact .trueWord h.1
  · exact .nilWord h.1

/-- Operands and an operator between them. -/
theorem exists_joined {level : Level} {tighter : List Level} {k : Nat} {left right : Expr}
    {op : Token} (hlevel : level :: tighter = levels.drop k) (hop : op.kind ∈ level.operators)
    (hleft : Regained left) (hleftRank : op.kind.precedence ≤ left.rank)
    (hright : Regained right) (hrightRank : op.kind.precedence < right.rank)
    {ts rest : List Token} (n : Nat)
    (hspells : Spells (left.inOrder ++ .token op :: right.inOrder) ts rest) :
    ∃ left' right' n', left'.relabel .unnumber = left.relabel .unnumber ∧
      right'.relabel .unnumber = right.relabel .unnumber ∧
      Stratum op.kind.precedence ts n (level.build n' left' op right') rest (n' + 1) := by
  obtain ⟨hk, hofRank, htighter⟩ := levels_ofRank hlevel
  rw [hofRank.precedence _ hop] at hleftRank hrightRank ⊢
  obtain ⟨_, hbefore, op, mid, rfl, rfl, hafter⟩ := spells_append.mp hspells
  obtain ⟨left', n₁, hleftSame, hleft'⟩ := hleft _ _ n hbefore
  obtain ⟨right', n₂, hrightSame, hright'⟩ := hright _ _ n₁ hafter
  have hleft'' := hleft'.loosen hleftRank
  have hright'' := hright'.loosen hrightRank
  rw [stratum_joined (by omega), ← hlevel] at hleft'' ⊢
  rw [stratum_joined (by omega), ← htighter] at hright''
  refine ⟨left', right', n₂, hleftSame, hrightSame, ?_⟩
  cases hleft'' with
  | level hfirst hmore => exact .level hfirst (hmore.trans (.more hop hright'' .done))

theorem level_of_binary {kind : Kind} (h : kind ∈ binaryKinds) :
    ∃ operators tighter, kind ∈ operators ∧
      ⟨operators, .binary⟩ :: tighter = levels.drop (kind.precedence - 1) := by
  simp only [binaryKinds, List.mem_cons, List.not_mem_nil, or_false] at h
  rcases h with rfl | rfl | rfl | rfl | rfl | rfl | rfl | rfl | rfl | rfl
  all_goals exact ⟨_, _, by decide, rfl⟩

theorem level_of_logical {kind : Kind} (h : kind ∈ [Kind.andWord, .orWord]) :
    ∃ operators tighter, kind ∈ operators ∧
      ⟨operators, .logical⟩ :: tighter = levels.drop (kind.precedence - 1) := by
  simp only [List.mem_cons, List.not_mem_nil, or_false] at h
  rcases h with rfl | rfl
  all_goals exact ⟨_, _, by decide, rfl⟩

theorem exists_moreArguments {es : List Expr} (hes : ∀ e ∈ es, Regained e)
    {ts rest : List Token} (n : Nat) (hspells : Spells (Expr.inOrderMore es) ts rest) :
    ∃ es' n', Expr.relabelAll .unnumber es' = Expr.relabelAll .unnumber es ∧
      MoreArguments ts n es' rest n' := by
  induction es generalizing ts n with
  | nil =>
    cases hspells
    exact ⟨[], n, rfl, .done⟩
  | cons e es ih =>
    obtain ⟨he, hes'⟩ := List.forall_mem_cons.mp hes
    obtain ⟨comma, ts', rfl, hcomma, hspells'⟩ := hspells
    obtain ⟨mid, hfirst, hlater⟩ := spells_append.mp hspells'
    obtain ⟨e', n₁, hsame, he'⟩ := he _ _ n hfirst
    obtain ⟨es', n₂, hsames, hmore⟩ := ih hes' n₁ hlater
    exact ⟨e' :: es', n₂, by rw [Expr.relabelAll, Expr.relabelAll, hsame, hsames],
      .more hcomma.1 (he'.loosen (Nat.zero_le _)) hmore⟩

theorem exists_arguments {es : List Expr} (hes : ∀ e ∈ es, Regained e)
    {ts rest : List Token} (n : Nat) (hspells : Spells (Expr.inOrderAll es) ts rest) :
    ∃ es' n', Expr.relabelAll .unnumber es' = Expr.relabelAll .unnumber es ∧
      Arguments ts n es' rest n' := by
  cases es with
  | nil =>
    cases hspells
    exact ⟨[], n, rfl, .none⟩
  | cons e es =>
    obtain ⟨he, hes'⟩ := List.forall_mem_cons.mp hes
    obtain ⟨mid, hfirst, hlater⟩ := spells_append.mp hspells
    obtain ⟨e', n₁, hsame, he'⟩ := he _ _ n hfirst
    obtain ⟨es', n₂, hsames, hmore⟩ := exists_moreArguments hes' n₁ hlater
    exact ⟨e' :: es', n₂, by rw [Expr.relabelAll, Expr.relabelAll, hsame, hsames],
      .some (he'.loosen (Nat.zero_le _)) hmore⟩

/-- Every stratified tree is built again from its words. -/
theorem regained_of_stratified {e : Expr} (h : e.Stratified) : Regained e := by
  induction h with
  | literal =>
    rintro _ rest n ⟨t, ts, rfl, hfits, rfl⟩
    exact ⟨.literal n _, n + 1, rfl, .mk (primary_of_fits hfits) .done⟩
  | self hkeyword =>
    rintro _ rest n ⟨t, ts, rfl, rfl, rfl⟩
    exact ⟨.self n t, n + 1, rfl, .mk (.self hkeyword) .done⟩
  | read hname =>
    rintro _ rest n ⟨t, ts, rfl, rfl, rfl⟩
    exact ⟨.read n t, n + 1, rfl, .mk (.read hname) .done⟩
  | group _ ih =>
    rintro _ rest n ⟨opening, ts, rfl, hopening, hspells⟩
    obtain ⟨_, hinner, closing, _, rfl, hclosing, rfl⟩ := spells_append.mp hspells
    obtain ⟨inner, n₁, hsame, hphrase⟩ := ih _ _ n hinner
    refine ⟨.group n₁ inner, n₁ + 1, by rw [Expr.relabel, hsame, Expr.relabel]; rfl, ?_⟩
    exact .mk (.group hopening.1 (hphrase.loosen (Nat.zero_le _)) hclosing.1) .done
  | unary hop _ hrank ih =>
    rintro _ rest n ⟨op, ts, rfl, rfl, hspells⟩
    obtain ⟨operand, n₁, hsame, hphrase⟩ := ih _ _ n hspells
    refine ⟨.unary n₁ op operand, n₁ + 1, by rw [Expr.relabel, hsame, Expr.relabel]; rfl, ?_⟩
    cases hphrase.loosen hrank with
    | operand h => exact .operand (.operator hop h)
  | binary hop _ hleftRank _ hrightRank hleft hright =>
    intro ts rest n hspells
    obtain ⟨operators, tighter, hmem, hlevel⟩ := level_of_binary hop
    obtain ⟨left, right, n', hleftSame, hrightSame, hphrase⟩ :=
      exists_joined hlevel hmem hleft hleftRank hright hrightRank n hspells
    exact ⟨_, _, by rw [Expr.relabel, hleftSame, hrightSame, Expr.relabel]; rfl, hphrase⟩
  | logical hop _ hleftRank _ hrightRank hleft hright =>
    intro ts rest n hspells
    obtain ⟨operators, tighter, hmem, hlevel⟩ := level_of_logical hop
    obtain ⟨left, right, n', hleftSame, hrightSame, hphrase⟩ :=
      exists_joined hlevel hmem hleft hleftRank hright hrightRank n hspells
    exact ⟨_, _, by rw [Expr.relabel, hleftSame, hrightSame, Expr.relabel]; rfl, hphrase⟩
  | assign hname _ ih =>
    rintro _ rest n ⟨name, _, rfl, rfl, equals, ts, rfl, hequals, hspells⟩
    obtain ⟨value, n₁, hsame, hphrase⟩ := ih _ _ (n + 1) hspells
    exact ⟨.assign n₁ name value, n₁ + 1, by rw [Expr.relabel, hsame, Expr.relabel]; rfl,
      .assign hname hequals.1 (hphrase.loosen (Nat.zero_le _))⟩
  | setProperty _ hrank hname _ hobject hvalue =>
    intro ts rest n hspells
    obtain ⟨_, hbefore, dot, _, rfl, hdot, name, _, rfl, rfl, equals, mid, rfl, hequals,
      hafter⟩ := spells_append.mp hspells
    obtain ⟨object, n₁, hobjectSame, hcall⟩ := hobject _ _ n hbefore
    obtain ⟨value, n₂, hvalueSame, hphrase⟩ := hvalue _ _ (n₁ + 1) hafter
    rw [hrank, stratum_callRank] at hcall
    exact ⟨.setProperty n₂ object name value, n₂ + 1,
      by rw [Expr.relabel, hobjectSame, hvalueSame, Expr.relabel]; rfl,
      .setProperty hcall hdot.1 hname hequals.1 (hphrase.loosen (Nat.zero_le _))⟩
  | call _ hrank hparen _ hmany hcallee harguments =>
    intro ts rest n hspells
    obtain ⟨_, hbefore, opening, _, rfl, hopening, hafter⟩ := spells_append.mp hspells
    obtain ⟨_, hwithin, paren, _, rfl, rfl, rfl⟩ := spells_append.mp hafter
    obtain ⟨callee, n₁, hcalleeSame, hcall⟩ := hcallee _ _ n hbefore
    obtain ⟨arguments, n₂, hsames, hphrases⟩ := exists_arguments harguments n₁ hwithin
    have hlength := congrArg List.length hsames
    rw [length_relabelAll, length_relabelAll] at hlength
    rw [hrank, stratum_callRank] at hcall
    obtain ⟨hprimary, hcalls⟩ := hcall
    exact ⟨.call n₂ callee paren arguments, n₂ + 1,
      by rw [Expr.relabel, hcalleeSame, hsames, Expr.relabel]; rfl,
      .mk hprimary (hcalls.trans (.call hopening.1 hphrases (by omega) hparen .done))⟩
  | property _ hrank hname ih =>
    intro ts rest n hspells
    obtain ⟨_, hbefore, dot, _, rfl, hdot, name, _, rfl, rfl, rfl⟩ := spells_append.mp hspells
    obtain ⟨object, n₁, hsame, hcall⟩ := ih _ _ n hbefore
    rw [hrank, stratum_callRank] at hcall
    obtain ⟨hprimary, hcalls⟩ := hcall
    exact ⟨.property n₁ object name, n₁ + 1, by rw [Expr.relabel, hsame, Expr.relabel]; rfl,
      .mk hprimary (hcalls.trans (.property hdot.1 hname .done))⟩

/-! ## 5. Expressions are faithful -/

/-- From tokens that were scanned, an expression that is read without a fault gives back in order
the words that were taken, and is stratified. Conversely a stratified tree is read, with other
identities and without a fault, from its words and whatever cannot go on with an expression. -/
theorem expression_faithful :
    (∀ (s s' : State) (e : Expr), (∀ t ∈ s.ahead, ∃ source, t ∈ tokensOf (scan source)) →
      expression s = .ok e s' → s'.faults = s.faults →
      Spells e.inOrder s.ahead s'.ahead ∧ e.Stratified) ∧
    (∀ (s : State) (e : Expr) (rest : List Token), e.Stratified →
      Spells e.inOrder s.ahead rest → Stops expressionContinues rest →
      ∃ e' n', expression s = .ok e' { s with ahead := rest, nextId := n' } ∧
        e'.relabel .unnumber = e.relabel .unnumber) := by
  constructor
  · intro s s' e hscanned hread hclean
    have hsound := sound_expression s
    rw [hread] at hsound
    have hvalued : Good Valued s.ahead := by
      intro t ht
      obtain ⟨source, hsource⟩ := hscanned t ht
      exact literate_of_mem_scan hsource
    exact ((hsound.2 hclean).spelled hvalued).2
  · intro s e rest hstratified hspells hstop
    obtain ⟨e', n', hsame, hphrase⟩ := regained_of_stratified hstratified _ _ s.nextId hspells
    have htakes := takes_expression (hphrase.loosen (Nat.zero_le _)) hstop
    exact ⟨e', n', htakes s.stop s.faults, hsame⟩

/-- The words of `a = b - c - d(e);`. -/
def differenceWords : List Token :=
  [⟨.identifier, "a", none, 1⟩, ⟨.equal, "=", none, 1⟩, ⟨.identifier, "b", none, 1⟩,
   ⟨.minus, "-", none, 1⟩, ⟨.identifier, "c", none, 1⟩, ⟨.minus, "-", none, 1⟩,
   ⟨.identifier, "d", none, 1⟩, ⟨.leftParen, "(", none, 1⟩, ⟨.identifier, "e", none, 1⟩,
   ⟨.rightParen, ")", none, 1⟩, ⟨.semicolon, ";", none, 1⟩]

/-- The tree of `a = b - c - d(e)`, with one identity for all expressions. -/
def differenceTree : Expr :=
  let minus : Token := ⟨.minus, "-", none, 1⟩
  let name (lexeme : String) : Token := ⟨.identifier, lexeme, none, 1⟩
  .assign 0 (name "a") (.binary 0 (.binary 0 (.read 0 (name "b")) minus (.read 0 (name "c"))) minus
    (.call 0 (.read 0 (name "d")) ⟨.rightParen, ")", none, 1⟩ [.read 0 (name "e")]))

/-- A difference is read from its words, joined from the left, and gives them back. -/
theorem expression_faithful_difference :
    ∃ e n', expression ⟨differenceWords, .endOfInput 1, [], 5⟩ =
        .ok e ⟨[⟨.semicolon, ";", none, 1⟩], .endOfInput 1, [], n'⟩ ∧
      e.relabel .unnumber = differenceTree.relabel .unnumber ∧
      Spells e.inOrder differenceWords [⟨.semicolon, ";", none, 1⟩] ∧ e.Stratified := by
  have hscanned : ∀ t ∈ differenceWords, t ∈ tokensOf (scan (spelling "a=b-c-d(e);")) := by
    decide +kernel
  have hspells : Spells differenceTree.inOrder differenceWords [⟨.semicolon, ";", none, 1⟩] := by
    simp [spells_cons, Spells.nil, Mark.Fits, differenceTree, differenceWords, Expr.inOrder,
      Expr.inOrderAll, Expr.inOrderMore]
  have hstratified : differenceTree.Stratified := by
    have hfirst : Expr.Stratified (.binary 0 (.read 0 ⟨.identifier, "b", none, 1⟩)
        ⟨.minus, "-", none, 1⟩ (.read 0 ⟨.identifier, "c", none, 1⟩)) :=
      .binary (by decide) (.read rfl) (by decide) (.read rfl) (by decide)
    have hcall : Expr.Stratified (.call 0 (.read 0 ⟨.identifier, "d", none, 1⟩)
        ⟨.rightParen, ")", none, 1⟩ [.read 0 ⟨.identifier, "e", none, 1⟩]) :=
      .call (.read rfl) rfl rfl (by simpa using .read rfl) (by decide)
    exact .assign rfl (.binary (by decide) hfirst (by decide) hcall (by decide))
  obtain ⟨e, n', hread, hsame⟩ := expression_faithful.2 ⟨differenceWords, .endOfInput 1, [], 5⟩
    differenceTree _ hstratified hspells (.of_kind rfl (by decide))
  refine ⟨e, n', hread, hsame, ?_⟩
  exact expression_faithful.1 _ _ e (fun t ht => ⟨_, hscanned t ht⟩) hread rfl

end Grammar

end ScriptLang
