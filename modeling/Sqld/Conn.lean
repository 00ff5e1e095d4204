import Mathlib.Logic.Function.Basic
import Sqld.Trans

/-!
# `scc::sqld::Conn` and the Connection Handles of a Program

`Conn` owns the connection handle `m_db`. Its constructor and `reopen` call `sqlite3_open`,
which writes a handle to `m_db` even when it reports an error, and raise on any code but
`SQLITE_OK`. The private `close()`, called by the destructor and by `reopen`, passes the
handle to `sqlite3_close`, does not look at the code, and sets `m_db` to null.

Two paths lose a handle. A constructor that raises leaves no object, so no destructor ever
closes the handle `sqlite3_open` handed back. And `sqlite3_close` releases nothing and
returns `SQLITE_BUSY` while a statement compiled on the connection is unfinalized, as one
is after `exec_select()` reported a row; `reopen` then overwrites `m_db`, and the old
handle is never closed again.

`Objects` is a program's objects on one connection: the live `Conn`, if any, and any number
of `Req` and `Trans` objects bound to it, with every call of the public API on them. Only
`Conn` opens and closes connection handles; a `Req` or a `Trans` only compiles, steps and
finalizes statements, and those it keeps in order: `Call.track` is the discipline, read off
the log, of a `Req` that holds at most the one statement in `m_stmt`.

## Main definitions
- `Conn.attach`, `Conn.construct`, `Conn.close`, `Conn.reopen`, `Conn.destroy`.
- `Objects`, `ObjOp`, `ObjOp.run`, `Objects.Runs`; `Objects.Trace`, a run with the calls
  it made; `ObjOp.OnReq`, the calls of one `Req`; `Objects.held`, the handle the live
  `Conn` holds.
- `Call.track`, `Disciplined`: the statement a `Req` holds, along its engine calls.

## Main results
- `ObjOp.run_handles`: one call closes no handle but the one the live `Conn` holds, and
  leaves it holding nothing, the same handle, or one an open of the call handed back.
- `Objects.Runs.never_closed`: over any run, a handle the live `Conn` does not hold, and
  that no open of the run hands back, is never passed to `sqlite3_close`.
- `conn_handle_leak`: both paths leave a handle no object holds.
- `req_stmt_discipline`: every call of a `Req` keeps the discipline, and over the life of a
  `Req` every statement handle a compile returns is finalized exactly once.
-/

namespace Sqld

/-! ## §1 The members of `Conn` -/

namespace Conn

variable {σ : Type} (e : Engine σ)

/-- The body `Conn::Conn` and `Conn::reopen` share: `sqlite3_open` into `m_db`, which keeps
    the handle whatever the code; a code other than `SQLITE_OK` raises. -/
def attach (uri : String) (w : World σ) : Outcome (Conn × World σ) Unit :=
  let o := w.openDb e uri
  if o.1.1 ≠ sqliteOk then .raise (.engine o.1.1) (⟨o.1.2⟩, o.2)
  else .ret () (⟨o.1.2⟩, o.2)

/-- `Conn::Conn(uri)`. -/
def construct (uri : String) (w : World σ) : Outcome (Conn × World σ) Unit := attach e uri w

/-- `Conn::close`: `sqlite3_close` on the handle, if there is one, whose code is not looked
    at; `m_db` is set to null either way. -/
def close (c : Conn) (w : World σ) : Conn × World σ :=
  match c.db with
  | none => (c, w)
  | some db => (⟨none⟩, (w.closeDb e db).2)

/-- `Conn::reopen(uri)`. -/
def reopen (uri : String) (c : Conn) (w : World σ) : Outcome (Conn × World σ) Unit :=
  attach e uri (close e c w).2

/-- `Conn::~Conn`. -/
def destroy (c : Conn) (w : World σ) : World σ := (close e c w).2

variable {e}

/-- `attach` makes one call, the open, and keeps the handle it hands back, whether it
    returns or raises. -/
theorem attach_spec (uri : String) (w : World σ) :
    (attach e uri w).state = (⟨(w.openDb e uri).1.2⟩, (w.openDb e uri).2) ∧
      (attach e uri w).Finished := by
  unfold attach
  dsimp only
  split_ifs <;> exact ⟨rfl, trivial⟩

theorem attach_eq_raise {uri : String} {w : World σ} {code : Code} {db : Option Db}
    (hopen : (w.openDb e uri).1 = (code, db)) (hcode : code ≠ sqliteOk) :
    attach e uri w = .raise (.engine code) (⟨db⟩, (w.openDb e uri).2) := by
  simp [attach, hopen, hcode]

/-- `close` makes one call, the close of the handle held, if there is one. -/
theorem close_spec (c : Conn) (w : World σ) :
    (close e c w).1.db = none ∧
      (close e c w).2.log = w.log ++ c.db.toList.map fun d => .closeDb d (w.closeDb e d).1 := by
  unfold close
  split <;> simp_all [World.closeDb]

end Conn

/-! ## §2 A program's objects on one connection -/

/-- The members of `Trans` a client calls. -/
inductive TransOp where
  | begin
  | commit
  | abort
  deriving DecidableEq

section Objects

variable {σ : Type} (e : Engine σ)

/-- `Trans::begin`, `Trans::commit`, `Trans::abort`. -/
def TransOp.call (c : Conn) (fuel : Nat) :
    TransOp → Trans → World σ → Outcome (Trans × World σ) Unit
  | .begin => Trans.begin e c fuel
  | .commit => Trans.commit e c fuel
  | .abort => Trans.abort e c fuel

/-- The objects of a program on one connection: the live `Conn`, if any; its `Req` and
    `Trans` objects by index, an index whose object was destroyed holding a new one; and the
    world. -/
structure Objects (σ : Type) where
  conn : Option Conn
  reqs : Nat → Req
  trans : Nat → Trans
  world : World σ

/-- A call of the public API: construct the `Conn` when none is live, `reopen` it, destroy
    it; call or destroy the `Req` at `j`; call or destroy the `Trans` at `i`. -/
inductive ObjOp where
  | construct (uri : String)
  | reopen (uri : String)
  | destroy
  | req (j : Nat) (op : Req.Op)
  | dropReq (j : Nat)
  | trans (i : Nat) (op : TransOp)
  | dropTrans (i : Nat)
  deriving DecidableEq

/-- The call is one of the `Req` at `j`: one of its members or its destructor. -/
def ObjOp.OnReq (j : Nat) : ObjOp → Prop
  | .req k _ => k = j
  | .dropReq k => k = j
  | _ => False

instance (j : Nat) : DecidablePred (ObjOp.OnReq j)
  | .req k _ => inferInstanceAs (Decidable (k = j))
  | .dropReq k => inferInstanceAs (Decidable (k = j))
  | .construct _ | .reopen _ | .destroy | .trans _ _ | .dropTrans _ => instDecidableFalse

/-- The state a finished call leaves; `none` for a call that ran out of fuel. -/
def Outcome.final {S α : Type} : Outcome S α → Option S
  | .ret _ s => some s
  | .raise _ s => some s
  | .spin _ => none

/-- One call, with `fuel` for the loops of `Req`; `none` when the call is not possible (a
    `Conn` constructed while one is live, a call on a dead one) or runs out of fuel. A
    constructor that raises leaves no object. -/
def ObjOp.run (fuel : Nat) (s : Objects σ) : ObjOp → Option (Objects σ)
  | .construct uri =>
    match s.conn, Conn.construct e uri s.world with
    | none, .ret () (c, w) => some { s with conn := some c, world := w }
    | none, .raise _ (_, w) => some { s with world := w }
    | _, _ => none
  | .reopen uri =>
    s.conn.bind fun c =>
      (Conn.reopen e uri c s.world).final.map fun (c, w) => { s with conn := some c, world := w }
  | .destroy => s.conn.map fun c => { s with conn := none, world := Conn.destroy e c s.world }
  | .req j op =>
    s.conn.bind fun c =>
      (Req.Op.run e c fuel op (s.reqs j) s.world).final.map fun (r, w) =>
        { s with reqs := Function.update s.reqs j r, world := w }
  | .dropReq j =>
    s.conn.map fun _ =>
      { s with reqs := Function.update s.reqs j Req.new, world := Req.destroy e (s.reqs j) s.world }
  | .trans i op =>
    s.conn.bind fun c =>
      (op.call e c fuel (s.trans i) s.world).final.map fun (t, w) =>
        { s with trans := Function.update s.trans i t, world := w }
  | .dropTrans i =>
    s.conn.bind fun c =>
      (Trans.destroy e c fuel (s.trans i) s.world).final.map fun (_, w) =>
        { s with trans := Function.update s.trans i Trans.new, world := w }

/-- Runs of finished calls. -/
def Objects.Runs : Objects σ → Objects σ → Prop :=
  Relation.ReflTransGen fun s t => ∃ op fuel, ObjOp.run e fuel s op = some t

/-- A run of finished calls with the calls it made, oldest first. -/
inductive Objects.Trace : List ObjOp → Objects σ → Objects σ → Prop
  | nil (s : Objects σ) : Objects.Trace [] s s
  | snoc {ops : List ObjOp} {s t u : Objects σ} (op : ObjOp) (fuel : Nat) :
      Objects.Trace ops s t → ObjOp.run e fuel t op = some u → Objects.Trace (ops ++ [op]) s u

theorem Objects.runs_iff_trace {s t : Objects σ} :
    Objects.Runs e s t ↔ ∃ ops, Objects.Trace e ops s t := by
  constructor
  · intro h
    induction h with
    | refl => exact ⟨[], .nil _⟩
    | tail _ hst ih =>
      obtain ⟨ops, hops⟩ := ih
      obtain ⟨op, fuel, hrun⟩ := hst
      exact ⟨ops ++ [op], .snoc op fuel hops hrun⟩
  · rintro ⟨ops, h⟩
    induction h with
    | nil => exact .refl
    | snoc op fuel _ hrun ih => exact .tail ih ⟨op, fuel, hrun⟩

/-- The connection handle the live `Conn` holds. -/
def Objects.held (s : Objects σ) : Option Db := s.conn.bind Conn.db

end Objects

/-! ## §3 Who closes a handle -/

/-- A call that touches no connection handle: a compile, a step or a finalize. -/
def Call.OnStmt : Call → Prop
  | .prepare .. => True
  | .step .. => True
  | .finalize _ => True
  | _ => False

section Handles

variable {σ : Type} {e : Engine σ}

/-- From `w0` to `w` the log grew by calls on statements only. -/
def StmtCalls (w0 w : World σ) : Prop :=
  ∃ calls, w.log = w0.log ++ calls ∧ ∀ x ∈ calls, x.OnStmt

theorem StmtCalls.refl (w : World σ) : StmtCalls w w := ⟨[], by simp, by simp⟩

/-- An engine call a `Req` makes is a call on a statement. -/
theorem StmtCalls.engineCall {c : Conn} {sql : String} {pos : Nat} {w0 w w' : World σ}
    (h : StmtCalls w0 w) (hc : EngineCall e c sql pos w w') : StmtCalls w0 w' := by
  obtain ⟨calls, hlog, hon⟩ := h
  obtain ⟨x, hx, hsent⟩ := hc.log
  refine ⟨calls ++ [x], by simp [hx, hlog], ?_⟩
  simp only [List.mem_append, List.mem_singleton]
  rintro y (hy | rfl)
  · exact hon y hy
  · cases y <;> simp_all [Call.Sent, Call.OnStmt]

theorem StmtCalls.trans {w0 w1 w2 : World σ} (h₁ : StmtCalls w0 w1) (h₂ : StmtCalls w1 w2) :
    StmtCalls w0 w2 := by
  obtain ⟨c₁, h₁, o₁⟩ := h₁
  obtain ⟨c₂, h₂, o₂⟩ := h₂
  exact ⟨c₁ ++ c₂, by simp [h₂, h₁],
    fun x hx => (List.mem_append.1 hx).elim (o₁ x) (o₂ x)⟩

theorem stmtCalls_destroy (r : Req) (w : World σ) : StmtCalls w (Req.destroy e r w) := by
  simp only [Req.destroy, Req.finalize_eq]
  cases r.stmt with
  | none => exact .refl w
  | some st => exact ⟨[.finalize st], by simp, by simp [Call.OnStmt]⟩

theorem stmtCalls_op (c : Conn) (fuel : Nat) (op : Req.Op) (r : Req) (w : World σ) :
    StmtCalls w (Req.Op.run e c fuel op r w).state.2 :=
  op_world (Q := StmtCalls w) (fun _ _ hc h => h.engineCall hc) fuel op (.refl w)

/-- A call of a `Trans` runs `exec()` of a `Req` and destroys it: calls on statements. -/
theorem stmtCalls_command (c : Conn) (fuel : Nat) (busy : Bool) (msg sql : String) (after : Bool)
    (t : Trans) (w : World σ) :
    StmtCalls w (Trans.command e c fuel busy msg sql after t w).state.2 := by
  have hx := stmtCalls_op (e := e) c fuel .exec (Req.new.append sql) w
  simp only [Req.Op.run] at hx
  unfold Trans.command
  split_ifs
  · exact .refl w
  split <;> rename_i heq <;> rw [heq] at hx
  · exact hx.trans (stmtCalls_destroy _ _)
  · exact hx.trans (stmtCalls_destroy _ _)
  · exact hx

theorem stmtCalls_trans (c : Conn) (fuel : Nat) (op : TransOp) (t : Trans) (w : World σ) :
    StmtCalls w (op.call e c fuel t w).state.2 := by
  cases op <;> exact stmtCalls_command c fuel _ _ _ _ t w

theorem stmtCalls_transDestroy (c : Conn) (fuel : Nat) (t : Trans) (w : World σ) :
    StmtCalls w (Trans.destroy e c fuel t w).state.2 := by
  unfold Trans.destroy
  split
  · exact stmtCalls_command c fuel _ _ _ _ t w
  · exact .refl w

/-- What a call may do to connection handles: the log grows by `new`, which closes no handle
    but the one the live `Conn` held before; after it the live `Conn` holds nothing, the
    handle it held, or one an open of `new` handed back. -/
def HandleStep (s t : Objects σ) : Prop :=
  ∃ new, t.world.log = s.world.log ++ new ∧
    (∀ d k, Call.closeDb d k ∈ new → s.held = some d) ∧
    (t.held = none ∨ t.held = s.held ∨
      ∃ u k d, t.held = some d ∧ Call.openDb u k (some d) ∈ new)

theorem HandleStep.of_stmtCalls {s t : Objects σ} (h : StmtCalls s.world t.world)
    (hc : t.conn = s.conn) : HandleStep s t := by
  obtain ⟨calls, hlog, hon⟩ := h
  exact ⟨calls, hlog, fun _ _ hx => (hon _ hx).elim, .inr (.inl (by simp [Objects.held, hc]))⟩

theorem Outcome.final_eq {S α : Type} {o : Outcome S α} (h : o.Finished) :
    o.final = some o.state := by
  cases o <;> first | rfl | exact absurd h id

theorem Outcome.final_map {S α β : Type} {o : Outcome S α} {f : S → β} {t : β}
    (h : o.final.map f = some t) : t = f o.state := by
  cases o <;> simp_all [Outcome.final, Outcome.state]

/-- The handle step of a call that ends with `attach` on the world `w` after the calls
    `pre`, which close at most the handle held before. -/
theorem HandleStep.attach {s t : Objects σ} {uri : String} {w : World σ} {pre : List Call}
    (hw : w.log = s.world.log ++ pre) (hpre : ∀ d k, Call.closeDb d k ∈ pre → s.held = some d)
    (hlog : t.world = (Conn.attach e uri w).state.2)
    (hheld : t.held = none ∨ t.held = (Conn.attach e uri w).state.1.db) : HandleStep s t := by
  rw [(Conn.attach_spec uri w).1] at hlog hheld
  refine ⟨pre ++ [.openDb uri (w.openDb e uri).1.1 (w.openDb e uri).1.2], by simp [hlog, hw],
    ?_, ?_⟩
  · simpa using hpre
  · rcases hheld with hn | hd
    · exact .inl hn
    · rcases hdb : (w.openDb e uri).1.2 with _ | d <;> rw [hdb] at hd
      · exact .inl hd
      · exact .inr (.inr ⟨uri, (w.openDb e uri).1.1, d, hd, by simp [hdb]⟩)

/-- The close `Conn::close` makes is of the handle the live `Conn` holds. -/
theorem held_of_close {s : Objects σ} {c : Conn} (hc : s.conn = some c) {w : World σ} {d : Db}
    {k : Code} (hx : Call.closeDb d k ∈ c.db.toList.map fun d => .closeDb d (w.closeDb e d).1) :
    s.held = some d := by
  rcases hd : c.db with _ | d' <;> simp [hd] at hx
  simp [Objects.held, hc, hd, hx.1]

/-- **What one call does to connection handles.** It closes no handle but the one the live
    `Conn` holds, and leaves the live `Conn` holding nothing, the same handle, or one an open
    of the call handed back. -/
theorem ObjOp.run_handles {fuel : Nat} {s t : Objects σ} {op : ObjOp}
    (h : ObjOp.run e fuel s op = some t) : HandleStep s t := by
  cases op with
  | construct uri =>
    simp only [ObjOp.run, Conn.construct] at h
    rcases hc : s.conn with _ | c <;>
      rcases ho : Conn.attach e uri s.world with ⟨⟨⟩, c', w⟩ | ⟨x, c', w⟩ | _ <;>
      simp only [hc, ho, Option.some.injEq, reduceCtorEq] at h <;> subst h
    · exact .attach (List.append_nil _).symm (by simp) (by rw [ho]; rfl)
        (.inr (by rw [ho]; rfl))
    · exact .attach (List.append_nil _).symm (by simp) (by rw [ho]; rfl)
        (.inl (by simp [Objects.held, hc]))
  | reopen uri =>
    simp only [ObjOp.run, Conn.reopen] at h
    rcases hc : s.conn with _ | c <;> simp only [hc, Option.none_bind, Option.some_bind,
      reduceCtorEq] at h
    rw [Outcome.final_eq (Conn.attach_spec uri _).2, Option.map_some', Option.some.injEq] at h
    subst h
    exact .attach (Conn.close_spec c s.world).2 (fun _ _ => held_of_close hc) rfl (.inr rfl)
  | destroy =>
    simp only [ObjOp.run] at h
    rcases hc : s.conn with _ | c <;> simp only [hc, Option.map_none', Option.map_some',
      Option.some.injEq, reduceCtorEq] at h
    subst h
    exact ⟨_, (Conn.close_spec c s.world).2, fun _ _ => held_of_close hc, .inl rfl⟩
  | req j op =>
    simp only [ObjOp.run] at h
    rcases hc : s.conn with _ | c <;> simp only [hc, Option.none_bind, Option.some_bind,
      reduceCtorEq] at h
    obtain rfl := Outcome.final_map h
    exact .of_stmtCalls (stmtCalls_op c fuel op _ _) hc.symm
  | dropReq j =>
    simp only [ObjOp.run] at h
    rcases hc : s.conn with _ | c <;> simp only [hc, Option.map_none', Option.map_some',
      Option.some.injEq, reduceCtorEq] at h
    subst h
    exact .of_stmtCalls (stmtCalls_destroy _ _) hc.symm
  | trans i op =>
    simp only [ObjOp.run] at h
    rcases hc : s.conn with _ | c <;> simp only [hc, Option.none_bind, Option.some_bind,
      reduceCtorEq] at h
    obtain rfl := Outcome.final_map h
    exact .of_stmtCalls (stmtCalls_trans c fuel op _ _) hc.symm
  | dropTrans i =>
    simp only [ObjOp.run] at h
    rcases hc : s.conn with _ | c <;> simp only [hc, Option.none_bind, Option.some_bind,
      reduceCtorEq] at h
    obtain rfl := Outcome.final_map h
    exact .of_stmtCalls (stmtCalls_transDestroy c fuel _ _) hc.symm

/-- **No run closes a handle the live `Conn` does not hold.** Over any run from `s`, a handle
    the live `Conn` does not hold at `s`, and that no open of the run hands back, is never
    passed to `sqlite3_close`, and is not held at the end. -/
theorem Objects.Runs.never_closed {s t : Objects σ} {db : Db} (h : Objects.Runs e s t)
    (hs : s.held ≠ some db) :
    ∃ new, t.world.log = s.world.log ++ new ∧
      ((∀ u k, Call.openDb u k (some db) ∉ new) →
        (∀ k, Call.closeDb db k ∉ new) ∧ t.held ≠ some db) := by
  unfold Objects.Runs at h
  induction h with
  | refl => exact ⟨[], by simp, fun _ => ⟨by simp, hs⟩⟩
  | tail _ hst ih =>
    obtain ⟨new₁, hlog₁, hfresh₁⟩ := ih
    obtain ⟨op, fuel, hrun⟩ := hst
    obtain ⟨new₂, hlog₂, hclose, hheld⟩ := ObjOp.run_handles hrun
    refine ⟨new₁ ++ new₂, by simp [hlog₂, hlog₁], fun hfresh => ?_⟩
    obtain ⟨hno₁, hm⟩ := hfresh₁ fun u k hx => hfresh u k (List.mem_append_left _ hx)
    refine ⟨fun k hx => ?_, ?_⟩
    · rcases List.mem_append.1 hx with hx | hx
      · exact hno₁ k hx
      · exact hm (hclose _ _ hx)
    · rcases hheld with hn | he | ⟨u, k, d, hd, hx⟩
      · simp [hn]
      · rwa [he]
      · rw [hd]
        rintro ⟨⟩
        exact hfresh u k (List.mem_append_right _ hx)

end Handles

/-! ## §4 Two handles no object holds -/

/-- **`Conn` loses connection handles on two paths.** A constructor whose open fails raises
    and leaves no `Conn`, though `sqlite3_open` handed back a handle. A `reopen` whose close
    answers `SQLITE_BUSY` has released nothing, and holds the new handle after it. Either
    way the handle is held by no object, and no run after passes it to `sqlite3_close`
    unless an open hands it back again. -/
theorem conn_handle_leak {σ : Type} (e : Engine σ) (fuel : Nat) :
    (∀ (s : Objects σ) uri code db, s.conn = none →
      (s.world.openDb e uri).1 = (code, some db) → code ≠ sqliteOk →
      ObjOp.run e fuel s (.construct uri) = some { s with world := (s.world.openDb e uri).2 } ∧
        Call.openDb uri code (some db) ∈ (s.world.openDb e uri).2.log) ∧
    (∀ (s : Objects σ) c uri db, s.conn = some c → c.db = some db →
      (s.world.closeDb e db).1 = sqliteBusy →
      ((s.world.closeDb e db).2.openDb e uri).1.2 ≠ some db →
      ∃ t, ObjOp.run e fuel s (.reopen uri) = some t ∧ t.held ≠ some db ∧
        Call.closeDb db sqliteBusy ∈ t.world.log) ∧
    (∀ (s t : Objects σ) db, Objects.Runs e s t → s.held ≠ some db →
      ∃ new, t.world.log = s.world.log ++ new ∧
        ((∀ u k, Call.openDb u k (some db) ∉ new) → ∀ k, Call.closeDb db k ∉ new)) := by
  refine ⟨fun s uri code db hs hopen hcode => ⟨?_, by simp [hopen]⟩,
    fun s c uri db hs hdb hbusy hnew => ⟨⟨some (Conn.reopen e uri c s.world).state.1, s.reqs,
      s.trans, (Conn.reopen e uri c s.world).state.2⟩, ?_, ?_, ?_⟩, fun s t db h hs => ?_⟩
  · simp [ObjOp.run, Conn.construct, Conn.attach_eq_raise hopen hcode, hs]
  · simp only [ObjOp.run, hs, Option.some_bind, Conn.reopen,
      Outcome.final_eq (Conn.attach_spec uri _).2, Option.map_some']
  · simpa [Objects.held, Conn.reopen, (Conn.attach_spec uri _).1, Conn.close, hdb] using hnew
  · simp [Conn.reopen, (Conn.attach_spec uri _).1, Conn.close, hdb, hbusy]
  · obtain ⟨new, hlog, hf⟩ := h.never_closed hs
    exact ⟨new, hlog, fun hfresh => (hf hfresh).1⟩

/-- `Conn c("file:/no/such/dir/x.db")`, sqlite reporting `SQLITE_CANTOPEN` with handle 0:
    the constructor raises and leaves no `Conn`. And a program that constructs its `Conn` on
    handle 0, runs `exec_select()` on `SELECT 1;`, which reports a row and keeps the
    statement, and calls `reopen("m")`: the close answers `SQLITE_BUSY`, and the `Conn`
    holds handle 1. -/
theorem conn_handle_leak_at :
    (ObjOp.run tapeEngine 0 ⟨none, fun _ => Req.new, fun _ => Trans.new,
        ⟨⟨[(sqliteCantOpen, some 0)], [], [], [], none⟩, []⟩⟩
        (.construct "file:/no/such/dir/x.db") =
      some ⟨none, fun _ => Req.new, fun _ => Trans.new, ⟨⟨[], [], [], [], none⟩,
        [.openDb "file:/no/such/dir/x.db" sqliteCantOpen (some 0)]⟩⟩) ∧
    ∃ s, Objects.Runs tapeEngine ⟨none, fun _ => Req.new, fun _ => Trans.new,
        ⟨⟨[(sqliteOk, some 0), (sqliteOk, some 1)], [sqliteBusy], [.ok (some 0) 9], [sqliteRow],
          none⟩, []⟩⟩ s ∧
      (s.reqs 0).stmt = some 0 ∧
      ∃ t, ObjOp.run tapeEngine 0 s (.reopen "m") = some t ∧ t.held ≠ some 0 ∧
        Call.closeDb 0 sqliteBusy ∈ t.world.log :=
  ⟨((conn_handle_leak tapeEngine 0).1 ⟨none, fun _ => Req.new, fun _ => Trans.new,
      ⟨⟨[(sqliteCantOpen, some 0)], [], [], [], none⟩, []⟩⟩ "file:/no/such/dir/x.db"
      sqliteCantOpen 0 rfl rfl (by decide)).1,
    _, .tail (.tail (.single ⟨.construct "m", 0, rfl⟩)
      ⟨.req 0 (.append "SELECT 1;"), 0, rfl⟩) ⟨.req 0 .execSelect, 2, rfl⟩, rfl,
    (conn_handle_leak tapeEngine 0).2.1 _ ⟨some 0⟩ "m" 0 rfl rfl rfl (by decide)⟩

/-! ## §5 Statement handles -/

/-- The statement a `Req` holds after one more of its engine calls, from the one it held;
    `none` when the call breaks the discipline: a compile while it holds a statement, a step
    or a finalize of a statement it does not hold, or a call on a connection handle. -/
def Call.track : Option Stmt → Call → Option (Option Stmt)
  | none, .prepare _ _ _ (.ok st _) => some st
  | none, .prepare _ _ _ (.error _) => some none
  | some st, .step st' _ => if st' = st then some (some st) else none
  | some st, .finalize st' => if st' = st then some none else none
  | _, _ => none

/-- `Call.track` along a list of calls. -/
def Call.trackAll (held : Option Stmt) (calls : List Call) : Option (Option Stmt) :=
  calls.foldlM Call.track held

section Discipline

variable {σ : Type} (e : Engine σ) (c : Conn)

/-- From `s` to `t` the `Req` made its engine calls in the discipline of `Call.track`, from
    the statement `s` holds to the one `t` holds. -/
def Disciplined (s t : Req × World σ) : Prop :=
  ∃ calls, t.2.log = s.2.log ++ calls ∧ Call.trackAll s.1.stmt calls = some t.1.stmt

/-- A client's calls on one `Req`, each with its fuel, whatever each returns or raises. -/
def Req.runOps : List (Nat × Req.Op) → Req × World σ → Req × World σ
  | [], s => s
  | (n, op) :: ops, (r, w) => Req.runOps ops (Req.Op.run e c n op r w).state

variable {e c}

theorem Disciplined.rfl {s t : Req × World σ} (hw : t.2 = s.2) (hst : t.1.stmt = s.1.stmt) :
    Disciplined s t :=
  ⟨[], by simp [hw], by simp [Call.trackAll, hst]⟩

theorem Disciplined.trans {s t u : Req × World σ} (h₁ : Disciplined s t)
    (h₂ : Disciplined t u) : Disciplined s u := by
  obtain ⟨c₁, hl₁, ht₁⟩ := h₁
  obtain ⟨c₂, hl₂, ht₂⟩ := h₂
  refine ⟨c₁ ++ c₂, by simp [hl₂, hl₁], ?_⟩
  simp only [Call.trackAll, List.foldlM_append] at ht₁ ht₂ ⊢
  rw [ht₁]
  exact ht₂

/-- Releasing the statement finalizes the one held. -/
theorem disciplined_release (r r' : Req) (w : World σ) (hr' : r'.stmt = none) :
    Disciplined (r, w) (r', w.release e r.stmt) := by
  rcases hst : r.stmt with _ | st
  · exact .rfl rfl (by simp [hst, hr'])
  · exact ⟨[.finalize st], by simp [hst], by simp [Call.trackAll, Call.track, hst, hr']⟩

/-- A compile while no statement is held: the `Req` then holds what it returned. -/
theorem disciplined_compile {r : Req} (r' : Req) {w w' : World σ} {sql : String} {pos : Nat}
    {a : Prepared} (hr : r.stmt = none) (hc : w.compile e c sql pos = (a, w'))
    (hr' : r'.stmt = match a with | .ok st _ => st | .error _ => none) :
    Disciplined (r, w) (r', w') := by
  refine ⟨[_], World.compile_log e w hc, ?_⟩
  cases a <;> simp [Call.trackAll, Call.track, hr, hr']

/-- A step of the statement held. -/
theorem disciplined_step {r r' : Req} {st : Stmt} (w : World σ) (hr : r.stmt = some st)
    (hr' : r'.stmt = some st) : Disciplined (r, w) (r', (w.step e st).2) :=
  ⟨[_], World.step_log e w st, by simp [Call.trackAll, Call.track, hr, hr']⟩

/-- One pass of `exec_select`'s loop releases the statement held, compiles, and steps the
    statement compiled. -/
theorem execSelectBody_disciplined {s t : Req × World σ}
    (h : Req.execSelectBody e c s = .next t ∨
      ∃ o, Req.execSelectBody e c s = .exit o ∧ o.state = t) :
    Disciplined s t := by
  obtain ⟨r, w⟩ := s
  have hrel := disciplined_release (e := e) r { r with stmt := none } w rfl
  rw [Req.execSelectBody_eq] at h
  by_cases hend : r.size ≤ r.pos
  · simp only [if_pos hend, reduceCtorEq, false_or, Step.exit.injEq, exists_eq_left'] at h
    subst h
    exact hrel
  simp only [if_neg hend] at h
  rcases hc : (w.release e r.stmt).compile e c r.sql r.pos with
    ⟨⟨_ | st, used⟩ | code, w1⟩ <;> simp only [hc] at h
  · simp only [reduceCtorEq, false_or, Step.exit.injEq, exists_eq_left'] at h
    subst h
    exact hrel.trans (disciplined_compile _ rfl hc rfl)
  · have key : ∀ r' : Req, r'.stmt = some st → Disciplined (r, w) (r', (w1.step e st).2) :=
      fun r' h' => (hrel.trans (disciplined_compile { r with stmt := some st } rfl hc rfl)).trans
        (disciplined_step w1 rfl h')
    split_ifs at h <;>
      simp only [reduceCtorEq, false_or, or_false, false_and, exists_false, Step.next.injEq,
        Step.exit.injEq, exists_eq_left', Outcome.state] at h <;>
      subst h <;> exact key _ rfl
  · simp only [reduceCtorEq, false_or, Step.exit.injEq, exists_eq_left'] at h
    subst h
    exact hrel.trans (disciplined_compile _ rfl hc rfl)

theorem execSelect_disciplined (n : Nat) (r : Req) (w : World σ) :
    Disciplined (r, w) (Req.execSelect e c n r w).state := by
  unfold Req.execSelect
  split
  · exact .rfl rfl rfl
  · exact loop_invariant _ (Disciplined (r, w))
      (fun _ _ _ h hb => h.trans (execSelectBody_disciplined (.inl hb)))
      (fun _ _ _ h hb => h.trans (execSelectBody_disciplined (.inr ⟨_, hb, rfl⟩)))
      n _ (.rfl rfl rfl)

/-- `next_row` steps the statement held, if any, and keeps it. -/
theorem nextRow_disciplined (r : Req) (w : World σ) :
    Disciplined (r, w) (Req.nextRow e r w).state := by
  rw [Req.nextRow_eq]
  rcases hst : r.stmt with _ | st
  · exact .rfl rfl rfl
  · simp only
    split_ifs <;> first
      | exact disciplined_step w hst (by simp [hst])
      | exact .rfl rfl rfl

theorem drainLoop_disciplined (n : Nat) (s : Req × World σ) :
    Disciplined s (loop (fun _ => Req.drainBody e) n s).state :=
  loop_invariant _ (Disciplined s)
    (fun _ t _ h hb => drainBody_state (.inl hb) ▸ h.trans (nextRow_disciplined t.1 t.2))
    (fun _ t o h hb =>
      drainBody_state (.inr ⟨o, hb, rfl⟩) ▸ h.trans (nextRow_disciplined t.1 t.2))
    n s (.rfl rfl rfl)

theorem execBody_disciplined {n : Nat} {s t : Req × World σ}
    (h : Req.execBody e c n s = .next t ∨ ∃ o, Req.execBody e c n s = .exit o ∧ o.state = t) :
    Disciplined s t := by
  rcases execBody_state h with rfl | ⟨k, s1, hx, rfl⟩
  · exact execSelect_disciplined n s.1 s.2
  · have hsel := execSelect_disciplined (e := e) (c := c) n s.1 s.2
    rw [hx] at hsel
    exact hsel.trans (drainLoop_disciplined n s1)

theorem exec_disciplined (n : Nat) (r : Req) (w : World σ) :
    Disciplined (r, w) (Req.exec e c n r w).state := by
  unfold Req.exec
  split
  · exact .rfl rfl rfl
  · exact loop_invariant _ (Disciplined (r, w))
      (fun _ _ _ h hb => h.trans (execBody_disciplined (.inl hb)))
      (fun _ _ _ h hb => h.trans (execBody_disciplined (.inr ⟨_, hb, rfl⟩))) n _ (.rfl rfl rfl)

theorem op_disciplined (n : Nat) (op : Req.Op) (r : Req) (w : World σ) :
    Disciplined (r, w) (Req.Op.run e c n op r w).state := by
  cases op with
  | append => exact .rfl rfl rfl
  | clear | reset =>
    simp only [Req.Op.run, Req.clear, Req.reset, Req.finalize_eq, Outcome.state]
    exact disciplined_release r _ w rfl
  | execSelect => simpa [Req.Op.run] using execSelect_disciplined n r w
  | nextRow => simpa [Req.Op.run] using nextRow_disciplined r w
  | exec => exact exec_disciplined n r w

theorem runOps_disciplined (ops : List (Nat × Req.Op)) (s : Req × World σ) :
    Disciplined s (Req.runOps e c ops s) := by
  induction ops generalizing s with
  | nil => exact .rfl rfl rfl
  | cons a ops ih =>
    obtain ⟨r, w⟩ := s
    exact (op_disciplined a.1 a.2 r w).trans (ih _)

/-- A call of a `Trans` that finished: its `Req` starts with no statement and is destroyed,
    so the calls it made hold no statement at the end. -/
theorem command_disciplined (fuel : Nat) (busy : Bool) (msg sql : String) (after : Bool)
    (t : Trans) (w : World σ) (hfin : (Trans.command e c fuel busy msg sql after t w).Finished) :
    ∃ calls, (Trans.command e c fuel busy msg sql after t w).state.2.log = w.log ++ calls ∧
      Call.trackAll none calls = some none := by
  have hx := exec_disciplined (e := e) (c := c) fuel (Req.new.append sql) w
  unfold Trans.command at hfin ⊢
  split_ifs with hb
  · exact ⟨[], by simp [Outcome.state], rfl⟩
  split
  next r w' heq =>
    rw [heq] at hx
    obtain ⟨calls, h₁, h₂⟩ :=
      hx.trans (disciplined_release (e := e) r { r with stmt := none } w' rfl)
    exact ⟨calls, by simpa [Req.destroy, Outcome.state] using h₁, h₂⟩
  next x r w' heq =>
    rw [heq] at hx
    obtain ⟨calls, h₁, h₂⟩ :=
      hx.trans (disciplined_release (e := e) r { r with stmt := none } w' rfl)
    exact ⟨calls, by simpa [Req.destroy, Outcome.state] using h₁, h₂⟩
  next heq =>
    rw [if_neg hb, heq] at hfin
    exact absurd hfin id

end Discipline

/-- **Every statement handle is finalized exactly once.** Every call of a `Req`, however it
    ends, makes its engine calls in the discipline of `Call.track` and ends holding the
    statement in `m_stmt`. So over the life of a `Req`, from its construction through any
    calls to its destruction, and over every call of a `Trans` that finishes, the wrapper
    compiles only while it holds no statement, steps only the statement it holds, and
    finalizes every statement a compile handed it exactly once. -/
theorem req_stmt_discipline {σ : Type} (e : Engine σ) (c : Conn) :
    (∀ n op r (w : World σ), Disciplined (r, w) (Req.Op.run e c n op r w).state) ∧
    (∀ ops (w : World σ), ∃ calls,
      (Req.destroy e (Req.runOps e c ops (Req.new, w)).1 (Req.runOps e c ops (Req.new, w)).2).log =
        w.log ++ calls ∧ Call.trackAll none calls = some none) ∧
    (∀ fuel busy msg sql after t (w : World σ),
      (Trans.command e c fuel busy msg sql after t w).Finished →
      ∃ calls, (Trans.command e c fuel busy msg sql after t w).state.2.log = w.log ++ calls ∧
        Call.trackAll none calls = some none) := by
  refine ⟨op_disciplined, fun ops w => ?_, command_disciplined⟩
  obtain ⟨calls, h₁, h₂⟩ := (runOps_disciplined (e := e) (c := c) ops (Req.new, w)).trans
    (disciplined_release (e := e) _ { (Req.runOps e c ops (Req.new, w)).1 with stmt := none } _ rfl)
  exact ⟨calls, by simpa [Req.destroy] using h₁, h₂⟩

end Sqld
