import Uplpgsql.Lib.Lookahead
import Uplpgsql.Parser.Fields

/-!
# The scanner

The scanner reads ahead of the parser, and the parser itself may put a token back. Both
go to one stack, which has room for four tokens.

## Main result

`calls_refine`: whatever the parser calls, in whatever order, as long as it has put back
no more than two tokens that it did not read again, the stack is never full and the tokens
are those that reading the plain stream of tokens would give.

## Proof strategy

The scanner itself leaves at most two tokens on the stack, and only if it read past the
tokens that were there. So a call keeps the stack within two of what the parser put back.
-/

namespace Uplpgsql.Parser

open Lib

/-! ### Tokens -/

inductive Keyword where
  | kAbsolute | kAlias | kAll | kAnd | kArray | kAssert | kBackward | kBegin | kBy | kCall | kCase
  | kChain | kClose | kCollate | kColumn | kColumnName | kCommit | kConstant | kConstraint
  | kConstraintName | kContinue | kCurrent | kCursor | kDatatype | kDebug | kDeclare | kDefault
  | kDetail | kDiagnostics | kDo | kDump | kElse | kElsif | kEnd | kErrcode | kError | kException
  | kExecute | kExit | kFetch | kFirst | kFor | kForeach | kForward | kFrom | kGet | kHint | kIf
  | kImport | kIn | kInfo | kInsert | kInto | kIs | kLast | kLog | kLoop | kMerge | kMessage
  | kMessageText | kMove | kNext | kNo | kNot | kNotice | kNull | kOpen | kOption | kOr | kPerform
  | kPgContext | kPgDatatypeName | kPgExceptionContext | kPgExceptionDetail | kPgExceptionHint
  | kPgRoutineOid | kPrintStrictParams | kPrior | kQuery | kRaise | kRelative | kReturn
  | kReturnedSqlstate | kReverse | kRollback | kRowCount | kRowtype | kSchema | kSchemaName
  | kScroll | kSlice | kSqlstate | kStacked | kStrict | kTable | kTableName | kThen | kTo | kType
  | kUseColumn | kUseVariable | kUsing | kVariableConflict | kWarning | kWhen | kWhile
  deriving DecidableEq, Repr

/-- Token codes; the ones that are never looked at are left as numbers. -/
inductive Tok where
  | ident
  | param
  | op
  | tWord
  | tCword
  | tDatum
  | lessLess
  | greaterGreater
  | colonEquals
  | char (c : Char)
  | keyword (k : Keyword)
  | other (code : Nat)
  deriving DecidableEq, Repr

/-- Semantic information of a token. -/
inductive LVal where
  | str (s : String)
  | ival (n : Int)
  | wdatum (dno : Nat) (ident : Option String) (quoted : Bool) (idents : List String)
  | word (ident : String) (quoted : Bool)
  | cword (idents : List String)
  | keyword (s : String)
  deriving DecidableEq, Repr

/-- A token code with its `TokenAuxData`. -/
structure Token where
  tok : Tok
  lval : LVal
  lloc : Nat
  leng : Nat
  deriving DecidableEq, Repr

/-- `lval.str` -/
def Token.str (t : Token) : String :=
  match t.lval with
  | .str s => s
  | _ => ""

def maxPushbacks : Nat := 4

def unreservedPLKeywords : List (String × Keyword) :=
  [("absolute", .kAbsolute), ("alias", .kAlias), ("and", .kAnd), ("array", .kArray),
   ("assert", .kAssert), ("backward", .kBackward), ("call", .kCall), ("chain", .kChain),
   ("close", .kClose), ("collate", .kCollate), ("column", .kColumn), ("column_name", .kColumnName),
   ("commit", .kCommit), ("constant", .kConstant), ("constraint", .kConstraint),
   ("constraint_name", .kConstraintName), ("continue", .kContinue), ("current", .kCurrent),
   ("cursor", .kCursor), ("datatype", .kDatatype), ("debug", .kDebug), ("default", .kDefault),
   ("detail", .kDetail), ("diagnostics", .kDiagnostics), ("do", .kDo), ("dump", .kDump),
   ("elseif", .kElsif), ("elsif", .kElsif), ("errcode", .kErrcode), ("error", .kError),
   ("exception", .kException), ("execute", .kExecute), ("exit", .kExit), ("fetch", .kFetch),
   ("first", .kFirst), ("forward", .kForward), ("get", .kGet), ("hint", .kHint),
   ("import", .kImport), ("info", .kInfo), ("insert", .kInsert), ("is", .kIs), ("last", .kLast),
   ("log", .kLog), ("merge", .kMerge), ("message", .kMessage), ("message_text", .kMessageText),
   ("move", .kMove), ("next", .kNext), ("no", .kNo), ("notice", .kNotice), ("open", .kOpen),
   ("option", .kOption), ("perform", .kPerform), ("pg_context", .kPgContext),
   ("pg_datatype_name", .kPgDatatypeName), ("pg_exception_context", .kPgExceptionContext),
   ("pg_exception_detail", .kPgExceptionDetail), ("pg_exception_hint", .kPgExceptionHint),
   ("pg_routine_oid", .kPgRoutineOid), ("print_strict_params", .kPrintStrictParams),
   ("prior", .kPrior), ("query", .kQuery), ("raise", .kRaise), ("relative", .kRelative),
   ("return", .kReturn), ("returned_sqlstate", .kReturnedSqlstate), ("reverse", .kReverse),
   ("rollback", .kRollback), ("row_count", .kRowCount), ("rowtype", .kRowtype),
   ("schema", .kSchema), ("schema_name", .kSchemaName), ("scroll", .kScroll), ("slice", .kSlice),
   ("sqlstate", .kSqlstate), ("stacked", .kStacked), ("strict", .kStrict), ("table", .kTable),
   ("table_name", .kTableName), ("type", .kType), ("use_column", .kUseColumn),
   ("use_variable", .kUseVariable), ("variable_conflict", .kVariableConflict),
   ("warning", .kWarning)]

/-- `AT_STMT_START` -/
def atStmtStart (prevToken : Option Tok) : Bool :=
  prevToken ∈ [some (.char ';'), some (.keyword .kBegin), some (.keyword .kThen), some (.keyword .kElse),
    some (.keyword .kLoop)]

/-- The function text, and what the core lexer makes of it. -/
structure Env where
  scanbuf : List Char
  coreYylex : Stream' Token

/-- The trivial translations in `internal_yylex`. -/
def Env.translate (env : Env) (t : Token) : Token :=
  match t.tok with
  | .op =>
    if t.str = "<<" then { t with tok := .lessLess }
    else if t.str = ">>" then { t with tok := .greaterGreater }
    else if t.str = "#" then { t with tok := .char '#' }
    else t
  | .param => { t with lval := .str (String.ofList ((env.scanbuf.drop t.lloc).take t.leng)) }
  | _ => t

def Env.tokens (env : Env) : Stream' Token := env.coreYylex.map env.translate

/-! ### Words -/

inductive Failure where
  | tooManyTokensPushedBack
  | unrecognizedItemtype
  /-- the parser called for something that cannot be done -/
  | names
  deriving DecidableEq, Repr

/-- What the scanner looks at beside the tokens: the last token and its length, and what
the parser has to say of names. -/
structure Context where
  yyleng : Nat
  yytoken : Option Tok
  identifierLookup : LookupMode
  compile : Compile
  deriving DecidableEq, Repr

/-- The variable that `uplpgsql_parse_word` finds. -/
def parseWord (mode : LookupMode) (word1 : String) (lookup : Bool) (s : Compile) :
    Except Failure (Option Nat) :=
  if lookup && mode = .normal then
    match nsLookup s.nsTop false word1 none none with
    | none => .ok none
    | some (item, _) =>
      match item.itemtype with
      | .var | .record => .ok (some item.itemno)
      | .label => .error .unrecognizedItemtype
  else .ok none

/-- A single word: a variable, an unreserved keyword, or any other word. -/
def wordToken (aux1 : Token) (quoted : Bool) : Option Nat → Token
  | some dno => { aux1 with tok := .tDatum, lval := .wdatum dno (some aux1.str) quoted [] }
  | none =>
    match (if quoted then none else unreservedPLKeywords.lookup aux1.str) with
    | some k => { aux1 with tok := .keyword k, lval := .keyword aux1.str }
    | none => { aux1 with tok := .tWord, lval := .word aux1.str quoted }

/-- A compound word; its length includes all the parts, up to the token `last`. -/
def compoundToken (aux1 last : Token) : Word → Token
  | .wdatum dno idents =>
    { aux1 with tok := .tDatum, lval := .wdatum dno none false idents, leng := last.lloc - aux1.lloc + last.leng }
  | .cword idents =>
    { aux1 with tok := .tCword, lval := .cword idents, leng := last.lloc - aux1.lloc + last.leng }

namespace Context

/-- The end of `uplpgsql_yylex` -/
def finish (ctx : Context) (t : Token) : Token × Context :=
  (t, { ctx with yyleng := t.leng, yytoken := some t.tok })

def word (env : Env) (aux1 : Token) (lookup : Bool) (ctx : Context) : Except Failure (Token × Context) := do
  let dno ← parseWord ctx.identifierLookup aux1.str lookup ctx.compile
  return ctx.finish (wordToken aux1 (env.scanbuf[aux1.lloc]? = some '"') dno)

def compound (words : Compound) (aux1 last : Token) (ctx : Context) : Except Failure (Token × Context) :=
  match words.parse ctx.identifierLookup ctx.compile with
  | none => .error .unrecognizedItemtype
  | some (w, compile) => .ok (finish { ctx with compile := compile } (compoundToken aux1 last w))

end Context

/-! ### The scanner -/

structure Scanner where
  input : Reader Token
  ctx : Context
  deriving DecidableEq, Repr

namespace Scanner

variable (env : Env)

/-- `internal_yylex`; the tokens are translated as they come from the core lexer. -/
def internalYylex (r : Reader Token) : Token × Reader Token := r.next env.tokens

/-- `push_back_token` -/
def pushBackToken (aux : Token) (r : Reader Token) : Except Failure (Reader Token) :=
  match r.putBack maxPushbacks aux with
  | some r => .ok r
  | none => .error .tooManyTokensPushedBack

/-- The parser gets the token, and the scanner goes on from `input`. -/
def leave (input : Reader Token) (o : Except Failure (Token × Context)) : Except Failure (Token × Scanner) :=
  o.map fun o => (o.1, ⟨input, o.2⟩)

/-- `uplpgsql_yylex` -/
def yylex (s : Scanner) : Except Failure (Token × Scanner) := do
  let (aux1, input) := internalYylex env s.input
  if aux1.tok = .ident ∨ aux1.tok = .param then
    let (aux2, input) := internalYylex env input
    if aux2.tok = .char '.' then
      let (aux3, input) := internalYylex env input
      if aux3.tok = .ident then
        let (aux4, input) := internalYylex env input
        if aux4.tok = .char '.' then
          let (aux5, input) := internalYylex env input
          if aux5.tok = .ident then
            leave input (s.ctx.compound (.tripword aux1.str aux3.str aux5.str) aux1 aux5)
          else
            -- not A.B.C, so just process A.B
            let input ← pushBackToken aux5 input
            let input ← pushBackToken aux4 input
            leave input (s.ctx.compound (.dblword aux1.str aux3.str) aux1 aux3)
        else
          let input ← pushBackToken aux4 input
          leave input (s.ctx.compound (.dblword aux1.str aux3.str) aux1 aux3)
      else
        -- not A.B, so just process A
        let input ← pushBackToken aux3 input
        let input ← pushBackToken aux2 input
        leave input (s.ctx.word env aux1 true)
    else
      let input ← pushBackToken aux2 input
      leave input (s.ctx.word env aux1 (!atStmtStart s.ctx.yytoken ||
        aux2.tok = .char '=' || aux2.tok = .colonEquals || aux2.tok = .char '['))
  else leave input (.ok (s.ctx.finish aux1))

/-- `uplpgsql_push_back_token` -/
def pushBack (tok : Tok) (lval : LVal) (lloc : Nat) (s : Scanner) : Except Failure Scanner := do
  let input ← pushBackToken ⟨tok, lval, lloc, s.ctx.yyleng⟩ s.input
  return { s with input := input }

/-- `uplpgsql_peek` -/
def peek (s : Scanner) : Except Failure (Tok × Scanner) := do
  let (aux1, input) := internalYylex env s.input
  let input ← pushBackToken aux1 input
  return (aux1.tok, { s with input := input })

/-- `uplpgsql_peek2` -/
def peek2 (s : Scanner) : Except Failure ((Tok × Tok × Nat × Nat) × Scanner) := do
  let (aux1, input) := internalYylex env s.input
  let (aux2, input) := internalYylex env input
  let input ← pushBackToken aux2 input
  let input ← pushBackToken aux1 input
  return ((aux1.tok, aux2.tok, aux1.lloc, aux2.lloc), { s with input := input })

end Scanner

/-! ### The plain stream of tokens -/

/-- The tokens to come, without a limit to what can be put back. -/
structure Reading where
  pending : Stream' Token
  ctx : Context

namespace Reading

/-- What the tokens in front are. -/
inductive Front where
  | token
  | word
  | dblword
  | tripword
  deriving DecidableEq, Repr

def front (p : Stream' Token) : Front :=
  if (p.get 0).tok = .ident ∨ (p.get 0).tok = .param then
    if (p.get 1).tok = .char '.' ∧ (p.get 2).tok = .ident then
      if (p.get 3).tok = .char '.' ∧ (p.get 4).tok = .ident then .tripword else .dblword
    else .word
  else .token

def Front.length : Front → Nat
  | .token => 1
  | .word => 1
  | .dblword => 3
  | .tripword => 5

/-- A variable is not looked for at the start of a statement, unless it is assigned to. -/
def lookup (prevToken : Option Tok) (next : Tok) : Bool :=
  !atStmtStart prevToken || next ∈ [.char '.', .char '=', .colonEquals, .char '[']

theorem lookup_dot (prevToken : Option Tok) : lookup prevToken (.char '.') = true := by
  simp [lookup]

theorem lookup_of_ne_dot (prevToken : Option Tok) {next : Tok} (ne : next ≠ .char '.') :
    lookup prevToken next =
      (!atStmtStart prevToken || next = .char '=' || next = .colonEquals || next = .char '[') := by
  simp [lookup, ne, Bool.or_assoc]

def read (env : Env) (p : Stream' Token) (ctx : Context) : Except Failure (Token × Context) :=
  match front p with
  | .token => .ok (ctx.finish (p.get 0))
  | .word => ctx.word env (p.get 0) (lookup ctx.yytoken (p.get 1).tok)
  | .dblword => ctx.compound (.dblword (p.get 0).str (p.get 2).str) (p.get 0) (p.get 2)
  | .tripword => ctx.compound (.tripword (p.get 0).str (p.get 2).str (p.get 4).str) (p.get 0) (p.get 4)

def leave (pending : Stream' Token) (o : Except Failure (Token × Context)) : Except Failure (Token × Reading) :=
  o.map fun o => (o.1, ⟨pending, o.2⟩)

def yylex (env : Env) (r : Reading) : Except Failure (Token × Reading) :=
  leave (r.pending.drop (front r.pending).length) (read env r.pending r.ctx)

def pushBack (tok : Tok) (lval : LVal) (lloc : Nat) (r : Reading) : Reading :=
  { r with pending := .cons ⟨tok, lval, lloc, r.ctx.yyleng⟩ r.pending }

end Reading

namespace Scanner

variable {env : Env} {r : Reader Token} {s : Scanner}

def view (env : Env) (s : Scanner) : Reading := ⟨s.input.pending env.tokens, s.ctx⟩

/-- The `n`th token of the stream, if the tokens before it were read. -/
theorem internalYylex_eq {p : Stream' Token} {n : Nat} (at_ : r.pending env.tokens = p.drop n) :
    ∃ r', internalYylex env r = (p.get n, r') ∧ r'.pending env.tokens = p.drop (n + 1) ∧
      r'.stack.length = r.stack.length - 1 := by
  refine ⟨_, Prod.ext ?_ rfl, ?_, Reader.length_next⟩
  · rw [internalYylex, Reader.next_fst, at_, Stream'.head_drop]
  · rw [internalYylex, Reader.pending_next, at_, Stream'.tail_drop']

/-- Putting back the token that was read last. -/
theorem pushBackToken_eq {p : Stream' Token} {n : Nat} (at_ : r.pending env.tokens = p.drop (n + 1))
    (room : r.stack.length < maxPushbacks) :
    ∃ r', pushBackToken (p.get n) r = .ok r' ∧ r'.pending env.tokens = p.drop n ∧
      r'.stack.length = r.stack.length + 1 := by
  obtain ⟨r', eq, pending, length⟩ := Reader.putBack_eq env.tokens room (p.get n)
  refine ⟨r', ?_, ?_, length⟩
  · rw [pushBackToken, eq]
  · rw [pending, at_, cons_get_drop]

/-- The scanner makes of the tokens in front what the plain stream has there. -/
theorem yylex_eq (env : Env) {p : Stream' Token} (start : s.input.pending env.tokens = p)
    (room : s.input.stack.length ≤ maxPushbacks) :
    ∃ input, s.yylex env = leave input (Reading.read env p s.ctx) ∧
      input.pending env.tokens = p.drop (Reading.front p).length ∧
      input.stack.length ≤ max (s.input.stack.length - 1) 2 := by
  obtain ⟨r1, read1, pending1, length1⟩ := internalYylex_eq (p := p) (n := 0) start
  obtain ⟨r2, read2, pending2, length2⟩ := internalYylex_eq pending1
  obtain ⟨r3, read3, pending3, length3⟩ := internalYylex_eq pending2
  obtain ⟨r4, read4, pending4, length4⟩ := internalYylex_eq pending3
  obtain ⟨r5, read5, pending5, length5⟩ := internalYylex_eq pending4
  simp only [Nat.zero_add, Nat.reduceAdd] at read2 read3 read4 read5 pending1 pending2 pending3 pending4 pending5
  unfold maxPushbacks at room
  rw [Reading.read, Reading.front, yylex]
  simp only [read1, read2, read3, read4, read5]
  by_cases isName : (p.get 0).tok = .ident ∨ (p.get 0).tok = .param
  case neg =>
    rw [if_neg isName, if_neg isName]
    exact ⟨r1, rfl, pending1, by omega⟩
  rw [if_pos isName, if_pos isName]
  by_cases dot : (p.get 1).tok = .char '.'
  case neg =>
    -- only a single token was read too much
    obtain ⟨r, push, pending, length⟩ := pushBackToken_eq pending2 (by unfold maxPushbacks; omega)
    rw [if_neg dot, if_neg fun both => dot both.1, push]
    refine ⟨r, ?_, pending, by omega⟩
    dsimp only
    rw [Reading.lookup_of_ne_dot _ dot]
    rfl
  rw [if_pos dot]
  by_cases ident : (p.get 2).tok = .ident
  case neg =>
    obtain ⟨r, push, pending, length⟩ := pushBackToken_eq pending3 (by unfold maxPushbacks; omega)
    obtain ⟨r', push', pending', length'⟩ := pushBackToken_eq pending (by unfold maxPushbacks; omega)
    rw [if_neg ident, if_neg fun both => ident both.2, push]
    refine ⟨r', ?_, pending', by omega⟩
    dsimp only [bind, Except.bind]
    rw [push', dot, Reading.lookup_dot]
  rw [if_pos ident, if_pos (And.intro dot ident)]
  by_cases dot' : (p.get 3).tok = .char '.'
  case neg =>
    obtain ⟨r, push, pending, length⟩ := pushBackToken_eq pending4 (by unfold maxPushbacks; omega)
    rw [if_neg dot', if_neg fun both => dot' both.1, push]
    exact ⟨r, rfl, pending, by omega⟩
  rw [if_pos dot']
  by_cases ident' : (p.get 4).tok = .ident
  case neg =>
    obtain ⟨r, push, pending, length⟩ := pushBackToken_eq pending5 (by unfold maxPushbacks; omega)
    obtain ⟨r', push', pending', length'⟩ := pushBackToken_eq pending (by unfold maxPushbacks; omega)
    rw [if_neg ident', if_neg fun both => ident' both.2, push]
    refine ⟨r', ?_, pending', by omega⟩
    dsimp only [bind, Except.bind]
    rw [push']
  -- all five tokens belong to the name
  rw [if_pos ident', if_pos (And.intro dot' ident')]
  exact ⟨r5, rfl, pending5, by omega⟩

theorem peek_eq (env : Env) (s : Scanner) (room : s.input.stack.length ≤ maxPushbacks) :
    ∃ s', s.peek env = .ok (((s.input.pending env.tokens).get 0).tok, s') ∧ s'.view env = s.view env ∧
      s'.input.stack.length ≤ max s.input.stack.length 1 := by
  obtain ⟨r1, read1, pending1, length1⟩ :=
    internalYylex_eq (p := s.input.pending env.tokens) (n := 0) (r := s.input) rfl
  unfold maxPushbacks at room
  obtain ⟨r, push, pending, length⟩ := pushBackToken_eq pending1 (by unfold maxPushbacks; omega)
  refine ⟨{ s with input := r }, ?_, ?_, by dsimp only; omega⟩
  · rw [peek, read1]
    dsimp only [bind, Except.bind]
    rw [push]
    rfl
  · rw [view, pending, Stream'.drop_zero, view]

theorem peek2_eq (env : Env) (s : Scanner) (room : s.input.stack.length ≤ maxPushbacks) :
    ∃ s', s.peek2 env = .ok ((((s.input.pending env.tokens).get 0).tok, ((s.input.pending env.tokens).get 1).tok,
        ((s.input.pending env.tokens).get 0).lloc, ((s.input.pending env.tokens).get 1).lloc), s') ∧
      s'.view env = s.view env ∧ s'.input.stack.length ≤ max s.input.stack.length 2 := by
  obtain ⟨r1, read1, pending1, length1⟩ :=
    internalYylex_eq (p := s.input.pending env.tokens) (n := 0) (r := s.input) rfl
  obtain ⟨r2, read2, pending2, length2⟩ := internalYylex_eq pending1
  unfold maxPushbacks at room
  obtain ⟨r, push, pending, length⟩ := pushBackToken_eq pending2 (by unfold maxPushbacks; omega)
  obtain ⟨r', push', pending', length'⟩ := pushBackToken_eq pending (by unfold maxPushbacks; omega)
  refine ⟨{ s with input := r' }, ?_, ?_, by dsimp only; omega⟩
  · rw [peek2, read1]
    dsimp only
    rw [read2]
    dsimp only [bind, Except.bind]
    rw [push]
    dsimp only
    rw [push']
    rfl
  · rw [view, pending', Stream'.drop_zero, view]

end Scanner

/-! ### Calls -/

/-- What the parser calls, and what it does to the names between the calls. -/
inductive Call where
  | yylex
  | peek
  | peek2
  | pushBack (tok : Tok) (lval : LVal) (lloc : Nat)
  | setLookup (mode : LookupMode)
  | names (op : Op)
  deriving DecidableEq, Repr

inductive Answer where
  | token (t : Token)
  | peeked (tok : Tok)
  | peeked2 (tok1 tok2 : Tok) (loc1 loc2 : Nat)
  | done
  deriving DecidableEq, Repr

def Context.names (op : Op) (ctx : Context) : Except Failure Context :=
  match op.step ctx.compile with
  | some compile => .ok { ctx with compile := compile }
  | none => .error .names

def Scanner.step (env : Env) (s : Scanner) : Call → Except Failure (Answer × Scanner)
  | .yylex => (s.yylex env).map fun o => (.token o.1, o.2)
  | .peek => (s.peek env).map fun o => (.peeked o.1, o.2)
  | .peek2 => (s.peek2 env).map fun o => (.peeked2 o.1.1 o.1.2.1 o.1.2.2.1 o.1.2.2.2, o.2)
  | .pushBack tok lval lloc => (s.pushBack tok lval lloc).map fun s => (.done, s)
  | .setLookup mode => .ok (.done, { s with ctx := { s.ctx with identifierLookup := mode } })
  | .names op => (s.ctx.names op).map fun ctx => (.done, { s with ctx := ctx })

def Scanner.run (env : Env) : List Call → Scanner → Except Failure (List Answer × Scanner)
  | [], s => .ok ([], s)
  | call :: calls, s => do
    let (answer, s) ← s.step env call
    let (answers, s) ← Scanner.run env calls s
    return (answer :: answers, s)

def Reading.step (env : Env) (r : Reading) : Call → Except Failure (Answer × Reading)
  | .yylex => (r.yylex env).map fun o => (.token o.1, o.2)
  | .peek => .ok (.peeked (r.pending.get 0).tok, r)
  | .peek2 => .ok (.peeked2 (r.pending.get 0).tok (r.pending.get 1).tok (r.pending.get 0).lloc
      (r.pending.get 1).lloc, r)
  | .pushBack tok lval lloc => .ok (.done, r.pushBack tok lval lloc)
  | .setLookup mode => .ok (.done, { r with ctx := { r.ctx with identifierLookup := mode } })
  | .names op => (r.ctx.names op).map fun ctx => (.done, { r with ctx := ctx })

def Reading.run (env : Env) : List Call → Reading → Except Failure (List Answer × Reading)
  | [], r => .ok ([], r)
  | call :: calls, r => do
    let (answer, r) ← r.step env call
    let (answers, r) ← Reading.run env calls r
    return (answer :: answers, r)

/-- How many tokens the parser has put back and did not read again. -/
def Call.owed (n : Nat) : Call → Nat
  | .yylex => n - 1
  | .pushBack _ _ _ => n + 1
  | _ => n

/-- There are never more than two of them. -/
def Patient : Nat → List Call → Prop
  | _, [] => True
  | n, call :: calls => call.owed n ≤ 2 ∧ Patient (call.owed n) calls

instance : (n : Nat) → (calls : List Call) → Decidable (Patient n calls)
  | _, [] => inferInstanceAs (Decidable True)
  | n, call :: calls =>
    have := instDecidablePatient (call.owed n) calls
    inferInstanceAs (Decidable (call.owed n ≤ 2 ∧ Patient (call.owed n) calls))

/-- `uplpgsql_scanner_init` -/
def Context.start : Context := ⟨0, none, .normal, .start⟩

def Scanner.start : Scanner := ⟨⟨[], 0⟩, .start⟩

def Reading.start (env : Env) : Reading := ⟨env.tokens, .start⟩

/-! ### No call fails, or differs -/

theorem parseWord_ok (mode : LookupMode) (word1 : String) (lookup : Bool) (s : Compile) :
    ∃ dno, parseWord mode word1 lookup s = .ok dno := by
  unfold parseWord
  split
  · split
    · exact ⟨_, rfl⟩
    next item nnames looked =>
      split
      · exact ⟨_, rfl⟩
      · exact ⟨_, rfl⟩
      next type => exact absurd type (nsLookup_found looked).2
  · exact ⟨_, rfl⟩

theorem Context.word_eq (ctx : Context) (env : Env) (aux1 : Token) (lookup : Bool) :
    ∃ dno, ctx.word env aux1 lookup = .ok (ctx.finish (wordToken aux1 (env.scanbuf[aux1.lloc]? = some '"') dno)) := by
  obtain ⟨dno, found⟩ := parseWord_ok ctx.identifierLookup aux1.str lookup ctx.compile
  refine ⟨dno, ?_⟩
  rw [word, found]
  rfl

theorem Context.compound_eq {ctx : Context} {words : Compound} {aux1 last : Token} {o : Token × Context}
    (eq : ctx.compound words aux1 last = .ok o) :
    ∃ w compile, words.parse ctx.identifierLookup ctx.compile = some (w, compile) ∧
      o = finish { ctx with compile := compile } (compoundToken aux1 last w) := by
  unfold compound at eq
  split at eq
  · cases eq
  next w compile parsed =>
    cases eq
    exact ⟨w, compile, parsed, rfl⟩

theorem Reading.read_ok {ctx : Context} (sound : Sound ctx.compile) (env : Env) (p : Stream' Token) :
    ∃ t ctx', read env p ctx = .ok (t, ctx') ∧ Sound ctx'.compile := by
  have compound_ok (words : Compound) (aux1 last : Token) :
      ∃ t ctx', ctx.compound words aux1 last = .ok (t, ctx') ∧ Sound ctx'.compile := by
    obtain ⟨word, compile, parsed, scanned⟩ := parse_spec sound ctx.identifierLookup words
    have eq : ctx.compound words aux1 last =
        .ok (Context.finish { ctx with compile := compile } (compoundToken aux1 last word)) := by
      rw [Context.compound, parsed]
    exact ⟨_, _, eq, scanned.keeps.sound⟩
  unfold read
  split
  · exact ⟨_, _, rfl, sound⟩
  · obtain ⟨dno, eq⟩ := ctx.word_eq env (p.get 0) (lookup ctx.yytoken (p.get 1).tok)
    exact ⟨_, _, eq, sound⟩
  · exact compound_ok _ _ _
  · exact compound_ok _ _ _

/-- The outcome of a call, and what the plain stream has for it. -/
inductive Follows (env : Env) (n : Nat) {α : Type} :
    Except Failure (α × Scanner) → Except Failure (α × Reading) → Prop where
  | ok {answer : α} {s : Scanner} (room : s.input.stack.length ≤ n + 2) (sound : Sound s.ctx.compile) :
    Follows env n (.ok (answer, s)) (.ok (answer, s.view env))
  | names : Follows env n (.error .names) (.error .names)

theorem Follows.of_view {env : Env} {n : Nat} {α : Type} {answer : α} {s : Scanner} {r : Reading}
    (view : s.view env = r) (room : s.input.stack.length ≤ n + 2) (sound : Sound r.ctx.compile) :
    Follows env n (.ok (answer, s)) (.ok (answer, r)) := by
  subst view
  exact .ok room sound

theorem Scanner.step_follows (env : Env) {n : Nat} {s : Scanner} (call : Call)
    (room : s.input.stack.length ≤ n + 2) (few : n ≤ 2) (owed : call.owed n ≤ 2) (sound : Sound s.ctx.compile) :
    Follows env (call.owed n) (s.step env call) ((s.view env).step env call) := by
  -- Of the four places two are enough for what is owed and two for a lookahead.
  have limit : s.input.stack.length ≤ maxPushbacks := by unfold maxPushbacks; omega
  cases call with
  | yylex =>
    obtain ⟨input, eq, pending, length⟩ := Scanner.yylex_eq (s := s) env rfl limit
    obtain ⟨t, ctx', read, sound'⟩ := Reading.read_ok sound env (s.input.pending env.tokens)
    rw [Scanner.step, Reading.step, eq, Reading.yylex, Scanner.view, read, ← pending]
    refine .ok (s := ⟨input, ctx'⟩) ?_ sound'
    unfold Call.owed
    dsimp only
    omega
  | peek =>
    obtain ⟨s', eq, view, length⟩ := Scanner.peek_eq env s limit
    rw [Scanner.step, Reading.step, eq]
    refine .of_view view ?_ sound
    change s'.input.stack.length ≤ n + 2
    omega
  | peek2 =>
    obtain ⟨s', eq, view, length⟩ := Scanner.peek2_eq env s limit
    rw [Scanner.step, Reading.step, eq]
    refine .of_view view ?_ sound
    change s'.input.stack.length ≤ n + 2
    omega
  | pushBack tok lval lloc =>
    change n + 1 ≤ 2 at owed
    have room' : s.input.stack.length < maxPushbacks := by unfold maxPushbacks; omega
    obtain ⟨r, put, pending, length⟩ :=
      Reader.putBack_eq env.tokens room' ⟨tok, lval, lloc, s.ctx.yyleng⟩
    -- What is put back is the first of what is still to come.
    have there : view env ⟨r, s.ctx⟩ = (s.view env).pushBack tok lval lloc := by
      rw [Scanner.view, pending, Reading.pushBack, Scanner.view]
    rw [Scanner.step, Scanner.pushBack, pushBackToken, put, Reading.step]
    refine .of_view there ?_ sound
    change r.stack.length ≤ n + 1 + 2
    omega
  | setLookup mode => exact .ok room sound
  | names op =>
    rw [Scanner.step, Reading.step, Context.names, Context.names, Scanner.view]
    cases done : op.step s.ctx.compile with
    | none => exact .names
    | some compile => exact .ok (s := ⟨s.input, { s.ctx with compile := compile }⟩) room (Op.step_keeps sound done).sound

/-- A run of calls. -/
theorem Scanner.run_follows (env : Env) {n : Nat} {s : Scanner} {calls : List Call}
    (room : s.input.stack.length ≤ n + 2) (few : n ≤ 2) (patient : Patient n calls) (sound : Sound s.ctx.compile) :
    ∃ m, Follows env m (s.run env calls) ((s.view env).run env calls) := by
  induction calls generalizing n s with
  | nil => exact ⟨n, .ok room sound⟩
  | cons call calls ih =>
    obtain ⟨owed, later⟩ := patient
    have first := Scanner.step_follows env call room few owed sound
    rw [Scanner.run, Reading.run]
    generalize s.step env call = o at first ⊢
    generalize (s.view env).step env call = p at first ⊢
    cases first with
    | names => exact ⟨n, .names⟩
    | ok room' sound' => 
      obtain ⟨m, rest⟩ := ih room' owed later sound'
      refine ⟨m, ?_⟩
      dsimp only [bind, Except.bind]
      generalize Scanner.run env calls _ = o at rest ⊢
      generalize Reading.run env calls _ = p at rest ⊢
      cases rest with
      | names => exact .names
      | ok room'' sound'' => exact .ok room'' sound''

/-- The stack of the scanner is never full, however the parser reads, peeks and puts back,
as long as it owes two tokens at most; it gets the tokens of the plain stream. Only the
parser's own actions can fail. -/
theorem calls_refine (env : Env) {calls : List Call} (patient : Patient 0 calls) :
    (Scanner.start.run env calls).map (fun o => (o.1, o.2.view env)) = (Reading.start env).run env calls ∧
      ∀ e, Scanner.start.run env calls = .error e → e = .names := by
  obtain ⟨m, follows⟩ := Scanner.run_follows (s := .start) env (Nat.zero_le _) (Nat.zero_le _) patient
    Compile.start_sound
  have start : Scanner.start.view env = Reading.start env := rfl
  rw [start] at follows
  generalize Scanner.start.run env calls = o at follows ⊢
  generalize (Reading.start env).run env calls = p at follows ⊢
  cases follows with
  | ok room sound =>
    refine ⟨rfl, fun e failed => ?_⟩
    cases failed
  | names =>
    refine ⟨rfl, fun e failed => ?_⟩
    cases failed
    rfl

/-- `a.b.;` and the end of the text, over and over -/
def Env.abDot : Env where
  scanbuf := "a.b.;".toList
  coreYylex n :=
    match n with
    | 0 => ⟨.ident, .str "a", 0, 1⟩
    | 1 => ⟨.char '.', .ival 0, 1, 1⟩
    | 2 => ⟨.ident, .str "b", 2, 1⟩
    | 3 => ⟨.char '.', .ival 0, 3, 1⟩
    | 4 => ⟨.char ';', .ival 0, 4, 1⟩
    | _ => ⟨.other 0, .ival 0, 5, 0⟩

theorem calls_refine_abDot :
    let calls := [.yylex, .pushBack .tCword (.cword ["a", "b"]) 0, .pushBack (.keyword .kWhen) (.ival 0) 0, .peek2]
    (Scanner.start.run .abDot calls).map (fun o => (o.1, o.2.view .abDot)) = (Reading.start .abDot).run .abDot calls ∧
      ∀ e, Scanner.start.run .abDot calls = .error e → e = .names :=
  calls_refine .abDot (by decide)

/-- Two tokens are what the parser may owe, after the two that the scanner read ahead. -/
example :
    Scanner.start.run .abDot [.setLookup .declare, .yylex, .pushBack .tCword (.ival 0) 0,
      .pushBack .tCword (.ival 0) 0, .pushBack .tCword (.ival 0) 0] = .error .tooManyTokensPushedBack := rfl

/-! ### A token that was put back -/

/-- The code of a name; no token that `uplpgsql_yylex` returns has it. -/
def Tok.isName (tok : Tok) : Prop := tok = .ident ∨ tok = .param

theorem wordToken_not_name (aux1 : Token) (quoted : Bool) (dno : Option Nat) :
    ¬(wordToken aux1 quoted dno).tok.isName := by
  unfold wordToken Tok.isName
  cases dno with
  | some dno => simp
  | none =>
    dsimp only
    split <;> simp

theorem compoundToken_not_name (aux1 last : Token) (w : Word) : ¬(compoundToken aux1 last w).tok.isName := by
  unfold compoundToken Tok.isName
  cases w <;> simp

theorem Reading.read_finish {env : Env} {p : Stream' Token} {ctx ctx' : Context} {t : Token}
    (eq : read env p ctx = .ok (t, ctx')) : ¬t.tok.isName ∧ ctx'.finish t = (t, ctx') := by
  unfold read at eq
  split at eq
  next isToken =>
    cases eq
    refine ⟨fun isName => ?_, rfl⟩
    unfold Tok.isName at isName
    unfold front at isToken
    rw [if_pos isName] at isToken
    split at isToken
    · split at isToken <;> cases isToken
    · cases isToken
  · obtain ⟨dno, eq'⟩ := ctx.word_eq env (p.get 0) (lookup ctx.yytoken (p.get 1).tok)
    rw [eq'] at eq
    cases eq
    exact ⟨wordToken_not_name _ _ _, rfl⟩
  all_goals
    obtain ⟨w, compile, parsed, done⟩ := Context.compound_eq eq
    cases done
    exact ⟨compoundToken_not_name _ _ _, rfl⟩

theorem Reading.front_cons {t : Token} (notName : ¬t.tok.isName) (p : Stream' Token) :
    front (.cons t p) = .token := if_neg notName

/-- It is returned again as it was, and nothing is looked up a second time. -/
theorem Reading.yylex_pushBack {env : Env} {r r' : Reading} {t : Token} (eq : r.yylex env = .ok (t, r')) :
    (r'.pushBack t.tok t.lval t.lloc).yylex env = .ok (t, r') := by
  unfold Reading.yylex leave at eq
  cases had : read env r.pending r.ctx with
  | error e =>
    rw [had] at eq
    cases eq
  | ok o =>
    rw [had] at eq
    cases eq
    obtain ⟨notName, finished⟩ := read_finish had
    have length : o.2.yyleng = o.1.leng := congrArg (fun o => o.2.yyleng) finished.symm
    have same : (⟨o.1.tok, o.1.lval, o.1.lloc, o.2.yyleng⟩ : Token) = o.1 := by rw [length]
    unfold Reading.yylex pushBack
    dsimp only
    rw [same, front_cons notName, read, front_cons notName]
    change Except.ok ((o.2.finish o.1).1, (⟨_, (o.2.finish o.1).2⟩ : Reading)) = _
    rw [finished]
    rfl

theorem Reading.run_append (env : Env) (before after : List Call) (r : Reading) :
    r.run env (before ++ after) =
      (r.run env before).bind fun o => (o.2.run env after).map fun o' => (o.1 ++ o'.1, o'.2) := by
  induction before generalizing r with
  | nil =>
    rw [List.nil_append, run]
    change _ = (r.run env after).map fun o' => ([] ++ o'.1, o'.2)
    cases r.run env after <;> rfl
  | cons call before ih =>
    rw [List.cons_append, run, run]
    cases r.step env call with
    | error e => rfl
    | ok o =>
      dsimp only [bind, Except.bind]
      rw [ih]
      cases o.2.run env before with
      | error e => rfl
      | ok o' =>
        change _ = (o'.2.run env after).map fun o'' => (o.1 :: o'.1 ++ o''.1, o''.2)
        dsimp only [Except.bind]
        cases o'.2.run env after <;> rfl

theorem Reading.run_yylex {env : Env} {r r' : Reading} {t : Token} (read : r.yylex env = .ok (t, r'))
    (calls : List Call) :
    r.run env (.yylex :: calls) = (r'.run env calls).map fun o => (.token t :: o.1, o.2) := by
  rw [run, step, read]
  change (r'.run env calls).bind (fun o => .ok (.token t :: o.1, o.2)) = _
  cases r'.run env calls <;> rfl

theorem Reading.run_pushBack {env : Env} {r : Reading} {t : Token} (calls : List Call) :
    r.run env (.pushBack t.tok t.lval t.lloc :: calls) =
      ((r.pushBack t.tok t.lval t.lloc).run env calls).map fun o => (.done :: o.1, o.2) := by
  rw [run, step]
  change ((r.pushBack t.tok t.lval t.lloc).run env calls).bind (fun o => .ok (.done :: o.1, o.2)) = _
  cases (r.pushBack t.tok t.lval t.lloc).run env calls <;> rfl

theorem Patient.append {n : Nat} {before after : List Call} (patient : Patient n (before ++ after)) :
    Patient n before ∧ Patient (before.foldl (fun n call => call.owed n) n) after := by
  induction before generalizing n with
  | nil => exact ⟨trivial, patient⟩
  | cons call before ih =>
    obtain ⟨owed, later⟩ := patient
    exact ⟨⟨owed, (ih later).1⟩, (ih later).2⟩

theorem Patient.of_append {n : Nat} {before after : List Call} (first : Patient n before)
    (later : Patient (before.foldl (fun n call => call.owed n) n) after) : Patient n (before ++ after) := by
  induction before generalizing n with
  | nil => exact later
  | cons call before ih => exact ⟨first.1, ih first.2 later⟩

/-- A token that was put back after it was read is read again, and whatever follows is as
if it had not been put back. -/
theorem putBack_unobservable (env : Env) {before after : List Call} {answers : List Answer} {t : Token} {s : Scanner}
    (patient : Patient 0 (before ++ .yylex :: .pushBack t.tok t.lval t.lloc :: .yylex :: after))
    (had : Scanner.start.run env (before ++ [.yylex]) = .ok (answers ++ [.token t], s)) :
    ∃ rest : Except Failure (List Answer × Reading),
      (Scanner.start.run env (before ++ .yylex :: after)).map (fun o => (o.1, o.2.view env)) =
        rest.map (fun o => (answers ++ .token t :: o.1, o.2)) ∧
      (Scanner.start.run env (before ++ .yylex :: .pushBack t.tok t.lval t.lloc :: .yylex :: after)).map
          (fun o => (o.1, o.2.view env)) =
        rest.map (fun o => (answers ++ .token t :: .done :: .token t :: o.1, o.2)) := by
  obtain ⟨first, owed, owed', _, later⟩ := patient.append
  have patient' : Patient 0 (before ++ .yylex :: after) := first.of_append ⟨owed, later⟩
  have patient'' : Patient 0 (before ++ [.yylex]) := first.of_append ⟨owed, trivial⟩
  have plain := (calls_refine env patient'').1
  rw [had, Reading.run_append] at plain
  rw [(calls_refine env patient').1, (calls_refine env patient).1, Reading.run_append, Reading.run_append]
  cases began : (Reading.start env).run env before with
  | error e =>
    rw [began] at plain
    cases plain
  | ok o =>
    obtain ⟨answers', r⟩ := o
    rw [began] at plain
    cases read : r.yylex env with
    | error e =>
      rw [Except.bind, Reading.run, Reading.step, read] at plain
      cases plain
    | ok o =>
      obtain ⟨t', r'⟩ := o
      rw [Except.bind, Reading.run_yylex read] at plain
      obtain ⟨same, -⟩ := Prod.mk.inj (Except.ok.inj plain)
      obtain ⟨rfl, last⟩ := List.append_inj' same rfl
      cases last
      refine ⟨r'.run env after, ?_, ?_⟩
      · rw [Except.bind, Reading.run_yylex read]
        cases r'.run env after <;> rfl
      · rw [Except.bind, Reading.run_yylex read, Reading.run_pushBack,
          Reading.run_yylex (Reading.yylex_pushBack read)]
        cases r'.run env after <;> rfl

theorem putBack_unobservable_abDot :
    ∃ rest : Except Failure (List Answer × Reading),
      (Scanner.start.run .abDot [.setLookup .declare, .yylex, .peek]).map (fun o => (o.1, o.2.view .abDot)) =
        rest.map (fun o => (.done :: .token ⟨.tCword, .cword ["a", "b"], 0, 3⟩ :: o.1, o.2)) ∧
      (Scanner.start.run .abDot [.setLookup .declare, .yylex, .pushBack .tCword (.cword ["a", "b"]) 0, .yylex,
          .peek]).map (fun o => (o.1, o.2.view .abDot)) =
        rest.map (fun o => (.done :: .token ⟨.tCword, .cword ["a", "b"], 0, 3⟩ :: .done ::
          .token ⟨.tCword, .cword ["a", "b"], 0, 3⟩ :: o.1, o.2)) :=
  putBack_unobservable (t := ⟨.tCword, .cword ["a", "b"], 0, 3⟩) .abDot
    (show Patient 0 ([.setLookup .declare] ++ .yylex :: .pushBack .tCword (.cword ["a", "b"]) 0 :: .yylex :: [.peek])
      by decide)
    (show Scanner.start.run .abDot ([.setLookup .declare] ++ [.yylex]) = .ok ([.done] ++ [.token _], _) from rfl)

end Uplpgsql.Parser
