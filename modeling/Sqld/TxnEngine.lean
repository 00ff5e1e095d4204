import Mathlib.Logic.Function.Basic
import Sqld.Engine

/-!
# sqlite's Transaction, as Far as the Wrapper Meets It

`Trans` runs `BEGIN;`, `COMMIT;` and `ROLLBACK;` through a `Req`, and any `Req` can be given
statements that open or end a transaction themselves. This module models the engine's side
of that: which command a compiled statement runs, where sqlite ends a statement, and what
each command does to the connection's transaction, savepoints included.

sqlite decides what a statement runs by its first keywords, as its tokenizer reads them:
case does not matter, blanks and comments between tokens are skipped, and a keyword is a
whole word (`BEGIN_TS` is not `BEGIN`). A statement ends at the `;` that the machine of
`sqlite3_complete` finds completes it: not one in a string, a quoted name or a comment, nor
one inside the body of a `CREATE TRIGGER`. Text with no statement left compiles to none.

The transaction follows the VDBE's `OP_AutoCommit` and `OP_Savepoint`. `BEGIN` opens one and
fails inside one; `COMMIT` (or `END`) and `ROLLBACK` end one with its savepoints, and fail
outside one. `SAVEPOINT` opens one when none is open, the *transaction savepoint*, and
otherwise pushes a savepoint; `RELEASE` pops the savepoints down to and with the innermost
one of its name, and commits when that is the transaction savepoint; `ROLLBACK TO` pops the
ones inside it and keeps it. Names compare without regard to case. Any call may report a
fault instead (`TxnDb.fault`, free), syntax errors among them; with `autoRollback`, a
statement that fails with one of the codes after which sqlite may roll back on its own
(`SQLITE_FULL`, `SQLITE_IOERR`, `SQLITE_BUSY`, `SQLITE_NOMEM`) ends the transaction.

## Main definitions
- `Token`, `tokens`: sqlite's tokenizer, each token with the byte it ends at.
- `Scan`, `stmtEnd`: the machine of `sqlite3_complete`, and the byte a statement ends at.
- `TxnCmd`, `classify`, `stmtLength`, `hasSql`: the command a statement runs, its length,
  and whether a statement is left.
- `Txn`, `TxnCmd.run`: the connection's transaction, and what a command does to it.
- `TxnDb`, `txnEngine`: the engine.

## Main results
- `TxnCmd.run_code`: no command yields a row, and one that fails leaves the transaction.
- `TxnCmd.run_begun`: only `COMMIT` and `ROLLBACK` end a transaction that `BEGIN` opened.
- `TxnCmd.run_none`: `RELEASE`, `ROLLBACK TO` and statements that run no command open none.
-/

namespace Sqld

/-! ## §1 sqlite's tokenizer -/

/-- A token, as far as what a statement runs and where it ends go: a `;`; blanks, spaces or
    a comment; a bare word, upper-cased; a quoted name or a string, unquoted and upper-cased;
    or anything else. -/
inductive Token where
  | semi
  | blank
  | word (w : List Char)
  | name (w : List Char)
  | other
  deriving DecidableEq, Repr

/-- `sqlite3IsIdChar`: letters, digits, `_`, `$` and every character past ASCII. -/
def isIdChar (c : Char) : Bool := c.isAlphanum || c == '_' || c == '$' || 0x80 ≤ c.toNat

/-- `sqlite3Isspace`. -/
def isBlank (c : Char) : Bool :=
  c == ' ' || c == '\t' || c == '\n' || c == '\x0b' || c == '\x0c' || c == '\r'

/-- What the tokenizer is in the middle of: between tokens; a word, read backwards; a
    quoted name or string closed by `close`, or just past its closing quote, which a second
    one makes a quote of the text; a `-` or a `/` that may start a comment; a comment to the
    end of the line; a block comment, or one just past a `*`. -/
inductive Lex where
  | start
  | word (acc : List Char)
  | quoted (close : Char) (acc : List Char)
  | closed (close : Char) (acc : List Char)
  | dash
  | slash
  | line
  | block
  | blockStar

namespace Lex

/-- A character `c` read between tokens, ending at byte `off`: the mode it starts, and the
    token it is when it is one alone. -/
def begin (c : Char) (off : Nat) : Lex × List (Token × Nat) :=
  if c == ';' then (.start, [(.semi, off)])
  else if isBlank c then (.start, [(.blank, off)])
  else if c == '-' then (.dash, [])
  else if c == '/' then (.slash, [])
  else if c == '\x22' || c == '\x27' || c == '\x60' then (.quoted c [], [])
  else if c == '[' then (.quoted ']' [], [])
  else if isIdChar c then (.word [c.toUpper], [])
  else (.start, [(.other, off)])

/-- The token `t`, ended at byte `pre` by the character `c`, which ends at `off` and is read
    as the start of what follows. -/
def flush (t : Token) (pre : Nat) (c : Char) (off : Nat) : Lex × List (Token × Nat) :=
  ((begin c off).1, (t, pre) :: (begin c off).2)

/-- One character `c`, from byte `pre` to byte `off`, read in mode `m`: the mode after it,
    and the tokens it completes, each with the byte it ends at. -/
def next (m : Lex) (c : Char) (pre off : Nat) : Lex × List (Token × Nat) :=
  match m with
  | .start => begin c off
  | .word acc => if isIdChar c then (.word (c.toUpper :: acc), []) else flush (.word acc.reverse) pre c off
  | .quoted q acc =>
    if c != q then (.quoted q (c.toUpper :: acc), [])
    else if q == ']' then (.start, [(.name acc.reverse, off)])
    else (.closed q acc, [])
  | .closed q acc => if c == q then (.quoted q (c :: acc), []) else flush (.name acc.reverse) pre c off
  | .dash => if c == '-' then (.line, []) else flush .other pre c off
  | .slash => if c == '*' then (.block, []) else flush .other pre c off
  | .line => if c == '\n' then (.start, [(.blank, off)]) else (.line, [])
  | .block => if c == '*' then (.blockStar, []) else (.block, [])
  | .blockStar =>
    if c == '/' then (.start, [(.blank, off)])
    else if c == '*' then (.blockStar, [])
    else (.block, [])

/-- The token the mode still holds where the text ends, at byte `off`: an open string is
    illegal, an open comment runs to the end. -/
def finish : Lex → Nat → List (Token × Nat)
  | .start, _ => []
  | .word acc, off => [(.word acc.reverse, off)]
  | .closed _ acc, off => [(.name acc.reverse, off)]
  | .quoted _ _, off | .dash, off | .slash, off => [(.other, off)]
  | .line, off | .block, off | .blockStar, off => [(.blank, off)]

end Lex

/-- The tokens of `cs`, read in mode `m` from byte `off`, each with the byte it ends at. -/
def tokensFrom (m : Lex) (off : Nat) : List Char → List (Token × Nat)
  | [] => m.finish off
  | c :: cs =>
    (m.next c off (off + c.utf8Size)).2 ++
      tokensFrom (m.next c off (off + c.utf8Size)).1 (off + c.utf8Size) cs

/-- The tokens of a text, each with the byte it ends at. -/
def tokens (cs : List Char) : List (Token × Nat) := tokensFrom .start 0 cs

example : (tokens "BEGIN_TS /* x; */ \x27a;\x27\x27b\x27;".toList).map Prod.fst =
    [.word "BEGIN_TS".toList, .blank, .blank, .blank, .name "A;\x27B".toList, .semi] := by
  decide

/-! ## §2 Where a statement ends -/

/-- The token classes of `sqlite3_complete`. -/
inductive Kind where
  | semi
  | ws
  | other
  | explain
  | create
  | temp
  | trigger
  | endKw

/-- The class of a token: the keywords `sqlite3_complete` looks for, by their words. -/
def Token.kind : Token → Kind
  | .semi => .semi
  | .blank => .ws
  | .word w =>
    if w == "EXPLAIN".toList then .explain
    else if w == "CREATE".toList then .create
    else if w == "TEMP".toList || w == "TEMPORARY".toList then .temp
    else if w == "TRIGGER".toList then .trigger
    else if w == "END".toList then .endKw
    else .other
  | .name _ | .other => .other

/-- The states of `sqlite3_complete`'s machine: before any token, or past a `;` that ended a
    statement; in a statement; past `EXPLAIN`; past `CREATE` (and `TEMP`); in the body of a
    trigger; there just past a `;`; and past an `END` that follows one. -/
inductive Scan where
  | invalid
  | start
  | normal
  | explain
  | create
  | trigger
  | triggerSemi
  | triggerEnd
  deriving DecidableEq

/-- The transition table of `sqlite3_complete`. -/
def Scan.next : Scan → Kind → Scan
  | .trigger, .semi => .triggerSemi
  | .trigger, _ => .trigger
  | .triggerSemi, .semi | .triggerSemi, .ws => .triggerSemi
  | .triggerSemi, .endKw => .triggerEnd
  | .triggerSemi, _ => .trigger
  | .triggerEnd, .semi => .start
  | .triggerEnd, .ws => .triggerEnd
  | .triggerEnd, _ => .trigger
  | _, .semi => .start
  | .invalid, .ws => .invalid
  | .start, .ws => .start
  | .explain, .ws | .explain, .other => .explain
  | .create, .ws | .create, .temp => .create
  | .create, .trigger => .trigger
  | .invalid, .explain | .start, .explain => .explain
  | .invalid, .create | .start, .create | .explain, .create => .create
  | _, _ => .normal

/-- The byte the statement that `ts` starts with ends at: just past the `;` that brings the
    machine, run from `q`, back to its start from inside a statement; `none` when no `;`
    does, and the statement runs to the end of the text. -/
def stmtEnd (q : Scan) : List (Token × Nat) → Option Nat
  | [] => none
  | (t, off) :: ts =>
    if q.next t.kind = .start ∧ q ≠ .invalid ∧ q ≠ .start then some off
    else stmtEnd (q.next t.kind) ts

/-! ## §3 What a statement runs -/

/-- What a statement does to the connection's transaction. A savepoint's name is upper-cased,
    as sqlite compares names without regard to case. -/
inductive TxnCmd where
  | begin
  | commit
  | rollback
  | savepoint (name : List Char)
  | release (name : List Char)
  | rollbackTo (name : List Char)
  | other
  deriving DecidableEq, Repr

/-- Whether a token is the keyword `kw`. -/
def Token.isKw (kw : String) : Token → Bool
  | .word w => w == kw.toList
  | _ => false

/-- The name a token gives, bare or quoted; none reads as the empty one. -/
def Token.nm : Token → List Char
  | .word w | .name w => w
  | _ => []

namespace TxnCmd

/-- The commands of `Trans`: `BEGIN`, `COMMIT` and `ROLLBACK`. -/
def ofTrans : TxnCmd → Bool
  | .begin | .commit | .rollback => true
  | _ => false

/-- The commands that open a transaction when none is open. -/
def opens : TxnCmd → Bool
  | .begin | .savepoint _ => true
  | _ => false

/-- The name after the optional keyword `kw`: `[SAVEPOINT] nm`. -/
def nameAfter (kw : String) : List Token → List Char
  | t :: ts => if t.isKw kw then (ts.headD .other).nm else t.nm
  | [] => []

/-- `TO [SAVEPOINT] nm`, if the words start with it. -/
def toTarget : List Token → Option TxnCmd
  | t :: ts => if t.isKw "TO" then some (.rollbackTo (nameAfter "SAVEPOINT" ts)) else none
  | [] => none

/-- What a statement starting with `ROLLBACK` runs, from the words after it:
    `[TRANSACTION [nm]]`, then `TO [SAVEPOINT] nm` or nothing. -/
def ofRollback : List Token → TxnCmd
  | t :: ts =>
    if t.isKw "TRANSACTION" then
      (toTarget ts).getD (if (ts.headD .other).nm ≠ [] then (toTarget ts.tail).getD .rollback
        else .rollback)
    else (toTarget (t :: ts)).getD .rollback
  | [] => .rollback

/-- What a statement runs, from its tokens but blanks: by its first keyword. -/
def ofWords : List Token → TxnCmd
  | t :: ts =>
    if t.isKw "BEGIN" then .begin
    else if t.isKw "COMMIT" || t.isKw "END" then .commit
    else if t.isKw "ROLLBACK" then ofRollback ts
    else if t.isKw "SAVEPOINT" then .savepoint (ts.headD .other).nm
    else if t.isKw "RELEASE" then .release (nameAfter "SAVEPOINT" ts)
    else .other
  | [] => .other

end TxnCmd

/-- The text from byte `pos` of `sql`. -/
def restOf (sql : String) (pos : Nat) : List Char := (sql.extract ⟨pos⟩ sql.endPos).toList

/-- The tokens from byte `pos` of `sql` but blanks, past the empty statements there. -/
def stmtTokens (sql : String) (pos : Nat) : List Token :=
  (((tokens (restOf sql pos)).map Prod.fst).filter (· != .blank)).dropWhile (· == .semi)

/-- The command the statement compiled from byte `pos` of `sql` runs. -/
def classify (sql : String) (pos : Nat) : TxnCmd := TxnCmd.ofWords (stmtTokens sql pos)

/-- The bytes sqlite consumes compiling from byte `pos` of `sql`: up to the end of the first
    statement there, or the rest of the text. -/
def stmtLength (sql : String) (pos : Nat) : Nat :=
  (stmtEnd .invalid (tokens (restOf sql pos))).getD (String.utf8ByteSize ⟨restOf sql pos⟩)

/-- Whether a statement is left from byte `pos`: a token but blanks and `;`. -/
def hasSql (sql : String) (pos : Nat) : Bool := stmtTokens sql pos != []

example : classify " -- c\n commit;" 0 = .commit ∧ classify "end transaction" 0 = .commit ∧
    classify "SELECT 1; BEGIN;" 0 = .other ∧ classify "BEGIN_TS;" 0 = .other ∧
    classify ";ROLLBACK TRANSACTION TO SAVEPOINT a;" 0 = .rollbackTo ['A'] ∧
    classify "release \x22a\x22" 0 = .release ['A'] := by
  decide

example : stmtLength "CREATE TRIGGER t AFTER INSERT ON x BEGIN SELECT \x27;\x27; END; BEGIN;" 0 = 57 ∧
    classify "CREATE TRIGGER t AFTER INSERT ON x BEGIN SELECT \x27;\x27; END; BEGIN;" 57 = .begin ∧
    hasSql " ; /* x */" 0 = false := by
  decide

/-! ## §4 The connection's transaction -/

/-- The connection's transaction: none open, in autocommit; one `BEGIN` opened, with the
    savepoints inside it, innermost first; or one a `SAVEPOINT` opened, with its transaction
    savepoint `outer` and the savepoints inside it. -/
inductive Txn where
  | none
  | begun (inner : List (List Char))
  | bySavepoint (outer : List Char) (inner : List (List Char))
  deriving DecidableEq, Repr

namespace Txn

/-- Whether a transaction is open: autocommit is off. -/
def isOpen : Txn → Bool
  | .none => false
  | _ => true

/-- Whether the open transaction is one `BEGIN` opened. -/
def isBegun : Txn → Bool
  | .begun _ => true
  | _ => false

theorem isOpen_of_isBegun {x : Txn} (h : x.isBegun = true) : x.isOpen = true := by
  cases x <;> simp_all [isBegun, isOpen]

/-- `RELEASE name`: pop the savepoints down to and with the innermost one called `name`; the
    transaction savepoint released commits. No such savepoint is an error. -/
def release (name : List Char) : Txn → Txn × Code
  | .none => (.none, sqliteError)
  | .begun l =>
    match l.dropWhile (· != name) with
    | [] => (.begun l, sqliteError)
    | _ :: rest => (.begun rest, sqliteDone)
  | .bySavepoint o l =>
    match l.dropWhile (· != name) with
    | _ :: rest => (.bySavepoint o rest, sqliteDone)
    | [] => if o = name then (.none, sqliteDone) else (.bySavepoint o l, sqliteError)

/-- `ROLLBACK TO name`: pop the savepoints inside the innermost one called `name`, and keep
    it and the transaction. No such savepoint is an error. -/
def rollbackTo (name : List Char) : Txn → Txn × Code
  | .none => (.none, sqliteError)
  | .begun l =>
    match l.dropWhile (· != name) with
    | [] => (.begun l, sqliteError)
    | l' => (.begun l', sqliteDone)
  | .bySavepoint o l =>
    match l.dropWhile (· != name) with
    | [] => if o = name then (.bySavepoint o [], sqliteDone) else (.bySavepoint o l, sqliteError)
    | l' => (.bySavepoint o l', sqliteDone)

end Txn

/-- What a statement running `cmd` does when no fault is reported: the transaction after it,
    and the code of the step. -/
def TxnCmd.run : TxnCmd → Txn → Txn × Code
  | .begin, .none => (.begun [], sqliteDone)
  | .begin, x => (x, sqliteError)
  | .commit, .none | .rollback, .none => (.none, sqliteError)
  | .commit, _ | .rollback, _ => (.none, sqliteDone)
  | .savepoint n, .none => (.bySavepoint n [], sqliteDone)
  | .savepoint n, .begun l => (.begun (n :: l), sqliteDone)
  | .savepoint n, .bySavepoint o l => (.bySavepoint o (n :: l), sqliteDone)
  | .release n, x => x.release n
  | .rollbackTo n, x => x.rollbackTo n
  | .other, x => (x, sqliteDone)

namespace TxnCmd

theorem release_code (n : List Char) (x : Txn) :
    (x.release n).2 ≠ sqliteRow ∧ ((x.release n).2 ≠ sqliteDone → (x.release n).1 = x) := by
  unfold Txn.release
  repeat' split
  all_goals simp_all [sqliteError, sqliteDone, sqliteRow]

theorem rollbackTo_code (n : List Char) (x : Txn) :
    (x.rollbackTo n).2 ≠ sqliteRow ∧
      ((x.rollbackTo n).2 ≠ sqliteDone → (x.rollbackTo n).1 = x) := by
  unfold Txn.rollbackTo
  repeat' split
  all_goals simp_all [sqliteError, sqliteDone, sqliteRow]

/-- **No command yields a row**, and one that fails leaves the transaction as it was. -/
theorem run_code (k : TxnCmd) (x : Txn) :
    (k.run x).2 ≠ sqliteRow ∧ ((k.run x).2 ≠ sqliteDone → (k.run x).1 = x) := by
  cases k with
  | release n => exact release_code n x
  | rollbackTo n => exact rollbackTo_code n x
  | _ => cases x <;> simp [run, sqliteError, sqliteDone, sqliteRow]

/-- **Only `COMMIT` and `ROLLBACK` end a transaction that `BEGIN` opened**: it stays one
    through any other command of a `Req`. -/
theorem run_begun {k : TxnCmd} (hk : k.ofTrans = false) {x : Txn} (hx : x.isBegun = true) :
    (k.run x).1.isBegun = true := by
  cases x <;> simp only [Txn.isBegun, Bool.false_eq_true] at hx
  cases k <;> simp only [ofTrans, Bool.true_eq_false] at hk
  case begun.savepoint => rfl
  case begun.release n l =>
    simp only [run, Txn.release]
    split <;> rfl
  case begun.rollbackTo n l =>
    simp only [run, Txn.rollbackTo]
    split <;> rfl
  case begun.other => rfl

/-- **`RELEASE`, `ROLLBACK TO` and statements that run no command open no transaction.** -/
theorem run_none {k : TxnCmd} (hk : k.ofTrans = false) (ho : k.opens = false) :
    (k.run .none).1 = .none := by
  cases k <;> simp_all [ofTrans, opens, run, Txn.release, Txn.rollbackTo]

/-- A `BEGIN` that is DONE found no transaction open, and opened one. -/
theorem begin_done {x x' : Txn} (h : TxnCmd.begin.run x = (x', sqliteDone)) :
    x = .none ∧ x' = .begun [] := by
  cases x <;> simp_all [run, sqliteError, sqliteDone]

/-- A `COMMIT` or a `ROLLBACK` that is DONE leaves no transaction open. -/
theorem end_done {k : TxnCmd} (hk : k = .commit ∨ k = .rollback) {x x' : Txn}
    (h : k.run x = (x', sqliteDone)) : x' = .none := by
  rcases hk with rfl | rfl <;> cases x <;> simp_all [run]

/-- With no transaction open, a `COMMIT` or a `ROLLBACK` fails. -/
theorem end_not_done {k : TxnCmd} (hk : k = .commit ∨ k = .rollback) (x' : Txn) :
    k.run .none ≠ (x', sqliteDone) := by
  rcases hk with rfl | rfl <;> simp [run, sqliteError, sqliteDone]

end TxnCmd

/-! ## §5 The engine -/

/-- The codes after which sqlite may roll back the open transaction on its own. -/
def autoRollbackCodes : List Code := [sqliteFull, sqliteIoErr, sqliteBusy, sqliteNoMem]

/-- A connection as far as its transaction goes: the transaction, the statements compiled
    and not finalized with the command each runs, the next handle, the number of calls made,
    and `fault n`, what the engine reports at call `n` instead of what the statement would
    do: for a compile, a failure; for a step of a command, a failure; for a step of any other
    statement, a row, DONE or a failure. -/
structure TxnDb where
  txn : Txn
  stmts : List (Stmt × TxnCmd)
  next : Stmt
  calls : Nat
  fault : Nat → Option Code

namespace TxnDb

/-- The command statement `st` runs; a handle the engine does not hold runs none. -/
def cmdOf (s : TxnDb) (st : Stmt) : TxnCmd :=
  ((s.stmts.find? (·.1 == st)).map Prod.snd).getD .other

/-- `sqlite3_prepare_v2`: a fault; no statement, when only blanks and empty statements are
    left; or a new statement running the command it reads as, and its length. -/
def prepare (s : TxnDb) (sql : String) (pos : Nat) : TxnDb × Prepared :=
  match s.fault s.calls with
  | some code => ({ s with calls := s.calls + 1 }, .error code)
  | none =>
    if hasSql sql pos then
      ({ s with
          calls := s.calls + 1
          stmts := (s.next, classify sql pos) :: s.stmts
          next := s.next + 1 },
        .ok (some s.next) (stmtLength sql pos))
    else ({ s with calls := s.calls + 1 }, .ok none (String.utf8ByteSize ⟨restOf sql pos⟩))

/-- What a step of `st` answers, before the engine's own rollback: the statement's command,
    or the fault reported instead; the transaction after it, and the code. -/
def answer (s : TxnDb) (st : Stmt) : Txn × Code :=
  match s.fault s.calls with
  | some code =>
    if s.cmdOf st = .other ∨ (code ≠ sqliteRow ∧ code ≠ sqliteDone) then (s.txn, code)
    else (s.cmdOf st).run s.txn
  | none => (s.cmdOf st).run s.txn

/-- `sqlite3_step`: the answer; with `autoRollback`, a failure with one of
    `autoRollbackCodes` ends the transaction. -/
def step (autoRollback : Bool) (s : TxnDb) (st : Stmt) : TxnDb × Code :=
  ({ s with
      calls := s.calls + 1
      txn := if autoRollback && autoRollbackCodes.contains (s.answer st).2 then .none
        else (s.answer st).1 },
    (s.answer st).2)

/-- `sqlite3_finalize`. -/
def finalize (s : TxnDb) (st : Stmt) : TxnDb := { s with stmts := s.stmts.filter (·.1 != st) }

/-- Every statement the engine holds runs a command `ok` allows. -/
def Holds (ok : TxnCmd → Bool) (s : TxnDb) : Prop := ∀ p ∈ s.stmts, ok p.2 = true

end TxnDb

/-- The engine: sqlite's transaction, with the faults of `TxnDb.fault`. Every statement has
    one column. -/
def txnEngine (autoRollback : Bool) : Engine TxnDb where
  openDb s _ := (s, sqliteOk, some 0)
  closeDb s _ := (s, sqliteOk)
  prepare s _ sql pos _ := s.prepare sql pos
  step s st := s.step autoRollback st
  finalize s st := s.finalize st
  columnCount _ _ := 1
  columnName _ _ _ := ""
  columnText _ _ _ := none
  columnInt _ _ _ := 0
  columnInt64 _ _ _ := 0
  columnDouble _ _ _ := 0
  columnBytes _ _ _ := 0
  columnBlob _ _ _ := []

/-- The transaction after a call that opens none: as it was, or, on an engine that rolls back
    on its own, ended. -/
def Kept (autoRollback : Bool) (x x' : Txn) : Prop := x' = x ∨ (autoRollback = true ∧ x' = .none)

theorem Kept.refl (a : Bool) (x : Txn) : Kept a x x := .inl rfl

/-- Without the engine's own rollback the transaction is as it was. -/
theorem Kept.eq {a : Bool} {x x' : Txn} (h : Kept a x x') (ha : a = false) : x' = x := by
  rcases h with h | ⟨rfl, _⟩
  exacts [h, absurd ha Bool.noConfusion]

/-- No transaction is open after the call if none was open before it. -/
theorem Kept.of_none {a : Bool} {x x' : Txn} (h : Kept a x x') (hx : x = .none) : x' = .none := by
  rcases h with rfl | ⟨_, rfl⟩
  exacts [hx, rfl]

namespace TxnDb

variable {s : TxnDb} {ok : TxnCmd → Bool}

theorem cmdOf_holds (h : s.Holds ok) (hother : ok .other = true) (st : Stmt) :
    ok (s.cmdOf st) = true := by
  unfold cmdOf
  rcases hf : s.stmts.find? (·.1 == st) with _ | p
  · simpa [hf] using hother
  · simpa [hf] using h p (List.mem_of_find?_eq_some hf)

theorem holds_finalize (h : s.Holds ok) (st : Stmt) : (s.finalize st).Holds ok :=
  fun p hp => h p (List.mem_filter.1 hp).1

theorem prepare_txn (sql : String) (pos : Nat) : (s.prepare sql pos).1.txn = s.txn := by
  unfold prepare
  split
  · rfl
  · split <;> rfl

/-- A compile keeps `Holds` when the statement it hands out, if any, runs a command `ok`
    allows. -/
theorem holds_prepare (h : s.Holds ok) {sql : String} {pos : Nat}
    (hcls : ∀ st used, (s.prepare sql pos).2 = .ok (some st) used → ok (classify sql pos) = true) :
    (s.prepare sql pos).1.Holds ok := by
  unfold prepare at hcls ⊢
  split
  · exact h
  · rename_i hf
    simp only [hf] at hcls
    by_cases hsql : hasSql sql pos
    · simp only [hsql, if_true] at hcls ⊢
      rintro p (_ | ⟨_, hp⟩)
      · exact hcls _ _ rfl
      · exact h p hp
    · simp only [hsql, Bool.false_eq_true, if_false]
      exact h

/-- A compile from where a statement is left that succeeds hands out the next handle, running
    the command the statement reads as, and consumes the statement. -/
theorem prepare_sql {sql : String} {pos : Nat} (hsql : hasSql sql pos = true)
    {stmt : Option Stmt} {used : Nat} (h : (s.prepare sql pos).2 = .ok stmt used) :
    stmt = some s.next ∧ used = stmtLength sql pos ∧
      (s.prepare sql pos).1.stmts = (s.next, classify sql pos) :: s.stmts := by
  unfold prepare at h ⊢
  split at h
  · cases h
  · rename_i hf
    simp only [hsql, if_true, Prepared.ok.injEq] at h
    simp [hf, hsql, h.1, h.2]

/-- A compile that fails leaves the statements as they were. -/
theorem prepare_error {sql : String} {pos : Nat} {code : Code}
    (h : (s.prepare sql pos).2 = .error code) : (s.prepare sql pos).1.stmts = s.stmts := by
  unfold prepare at h ⊢
  split at h
  · rfl
  · split at h <;> cases h

theorem step_stmts (a : Bool) (st : Stmt) : (s.step a st).1.stmts = s.stmts := rfl

/-- A step leaves the transaction its answer says, or, on an engine that rolls back on its
    own, ends it. -/
theorem step_kept (a : Bool) (st : Stmt) : Kept a (s.answer st).1 (s.step a st).1.txn := by
  simp only [step, Kept]
  cases a <;> cases autoRollbackCodes.contains (s.answer st).2 <;> simp

/-- A step that is DONE leaves the transaction its answer says. -/
theorem step_done {a : Bool} {st : Stmt} (h : (s.answer st).2 = sqliteDone) :
    (s.step a st).1.txn = (s.answer st).1 := by
  simp [step, h, autoRollbackCodes, sqliteDone, sqliteFull, sqliteIoErr, sqliteBusy, sqliteNoMem]

/-- **What a step does to the transaction**: it leaves it, runs the statement's command, or,
    on an engine that rolls back on its own, ends it. -/
theorem step_cases (a : Bool) (st : Stmt) :
    (s.step a st).1.txn = s.txn ∨ (s.step a st).1.txn = ((s.cmdOf st).run s.txn).1 ∨
      (a = true ∧ (s.step a st).1.txn = .none) := by
  simp only [step]
  split
  · next h => exact .inr (.inr ⟨(Bool.and_eq_true_iff.1 h).1, rfl⟩)
  · unfold answer
    split
    · split
      · exact .inl rfl
      · exact .inr (.inl rfl)
    · exact .inr (.inl rfl)

/-- A step of a command never yields a row; it is DONE when the command's rule lets it
    through, and otherwise leaves the transaction alone. -/
theorem answer_cmd {st : Stmt} {cmd : TxnCmd} (hk : s.cmdOf st = cmd) (hcmd : cmd ≠ .other) :
    (s.answer st).2 ≠ sqliteRow ∧
      ((s.answer st).2 = sqliteDone → s.answer st = cmd.run s.txn) ∧
      ((s.answer st).2 ≠ sqliteDone → (s.answer st).1 = s.txn) := by
  have hr := TxnCmd.run_code cmd s.txn
  unfold answer
  rcases s.fault s.calls with _ | code <;> dsimp only <;> rw [hk]
  · exact ⟨hr.1, fun _ => rfl, hr.2⟩
  · by_cases hc : code ≠ sqliteRow ∧ code ≠ sqliteDone
    · rw [if_pos (Or.inr hc)]
      exact ⟨hc.1, fun h => absurd h hc.2, fun _ => rfl⟩
    · rw [if_neg (by simp [hcmd, hc])]
      exact ⟨hr.1, fun _ => rfl, hr.2⟩

theorem cmdOf_cons {l : List (Stmt × TxnCmd)} (st : Stmt) (k : TxnCmd)
    (h : s.stmts = (st, k) :: l) : s.cmdOf st = k := by
  simp [cmdOf, h]

/-- Finalizing the statement just compiled leaves the engine holding what it held before. -/
theorem holds_finalize_cons {s' : TxnDb} (h : s.Holds ok) {st : Stmt} {k : TxnCmd}
    (hs : s'.stmts = (st, k) :: s.stmts) : (s'.finalize st).Holds ok := by
  intro p hp
  obtain ⟨hp, hne⟩ := List.mem_filter.1 hp
  rw [hs] at hp
  rcases List.mem_cons.1 hp with rfl | hp
  · simp at hne
  · exact h p hp

end TxnDb

end Sqld
