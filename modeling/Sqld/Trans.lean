import Sqld.Stream

/-!
# `scc::sqld::Trans`, the Transaction Helper

`Trans` keeps one flag, `m_active`, and issues `BEGIN;`, `COMMIT;` and `ROLLBACK;` through a
`Req` that lives for one call: the `Req`'s destructor finalizes whatever statement it still
holds, whether `exec()` returned or raised. The three members differ only in their guard,
its message, the text they run and the value they give the flag once `exec()` returns, so
they are one definition, `Trans.command`, applied to the values of each.

The spec asks of the destructor's forced rollback that it be "best-effort cleanup and must
not throw past destruction". `~Trans` calls `abort()` with no handler around it, so an
error of the `ROLLBACK` escapes the destructor.

## Main definitions
- `Trans`, `Trans.command`, `Trans.begin`, `Trans.commit`, `Trans.abort`, `Trans.destroy`.

## Main results
- `Trans.command_ret`, `Trans.command_raise`: how a call that got past its guard ends.
- `Trans.destroy_raises`: `~Trans` raises whatever its `ROLLBACK` raised.
-/

namespace Sqld

/-- `scc::sqld::Trans` other than the borrowed connection: the flag `m_active`. -/
structure Trans where
  active : Bool
  deriving DecidableEq, Repr

namespace Trans

variable {σ : Type} (e : Engine σ) (c : Conn)

/-- `Trans::Trans(Conn&)`. -/
def new : Trans := ⟨false⟩

/-- The body `begin`, `commit` and `abort` share: raise `msg` when `m_active` is `busy`;
    otherwise run `sql` through `exec()` of a `Req` on the connection, destroy that `Req`
    whether `exec()` returned or raised, and set `m_active` to `after` once it returned. -/
def command (fuel : Nat) (busy : Bool) (msg sql : String) (after : Bool) (t : Trans)
    (w : World σ) : Outcome (Trans × World σ) Unit :=
  if t.active = busy then .raise (.usage msg) (t, w)
  else
    match Req.exec e c fuel (Req.new.append sql) w with
    | .ret () (r, w) => .ret () (⟨after⟩, Req.destroy e r w)
    | .raise x (r, w) => .raise x (t, Req.destroy e r w)
    | .spin (_, w) => .spin (t, w)

/-- `Trans::begin`. -/
def begin (fuel : Nat) (t : Trans) (w : World σ) : Outcome (Trans × World σ) Unit :=
  command e c fuel true "begin() transaction when already active" "BEGIN;" true t w

/-- `Trans::commit`. -/
def commit (fuel : Nat) (t : Trans) (w : World σ) : Outcome (Trans × World σ) Unit :=
  command e c fuel false "commit() transaction when not active" "COMMIT;" false t w

/-- `Trans::abort`. -/
def abort (fuel : Nat) (t : Trans) (w : World σ) : Outcome (Trans × World σ) Unit :=
  command e c fuel false "abort() transaction when not active" "ROLLBACK;" false t w

/-- `Trans::~Trans`: an active transaction is aborted. -/
def destroy (fuel : Nat) (t : Trans) (w : World σ) : Outcome (Trans × World σ) Unit :=
  if t.active then abort e c fuel t w else .ret () (t, w)

/-! ## §1 How a call ends -/

variable {e c}

theorem command_usage {fuel : Nat} {busy after : Bool} {msg sql : String} {t : Trans}
    {w : World σ} (h : t.active = busy) :
    command e c fuel busy msg sql after t w = .raise (.usage msg) (t, w) := by
  simp [command, h]

/-- A call past its guard whose `exec()` returned: the flag is `after`, and the world is
    where `exec()` left it, with the `Req` destroyed. -/
theorem command_ret {fuel : Nat} {busy after : Bool} {msg sql : String} {t : Trans}
    {w w' : World σ} {r' : Req} (h : t.active ≠ busy)
    (hx : Req.exec e c fuel (Req.new.append sql) w = .ret () (r', w')) :
    command e c fuel busy msg sql after t w = .ret () (⟨after⟩, Req.destroy e r' w') := by
  simp [command, h, hx]

/-- A call past its guard whose `exec()` raised: the flag is kept, and the error escapes
    after the `Req` is destroyed. -/
theorem command_raise {fuel : Nat} {busy after : Bool} {msg sql : String} {t : Trans}
    {w w' : World σ} {r' : Req} {x : Error} (h : t.active ≠ busy)
    (hx : Req.exec e c fuel (Req.new.append sql) w = .raise x (r', w')) :
    command e c fuel busy msg sql after t w = .raise x (t, Req.destroy e r' w') := by
  simp [command, h, hx]

/-- The outcomes of a call: its guard raised, or `exec()` returned, or raised, or ran out
    of fuel. -/
theorem command_cases (fuel : Nat) (busy : Bool) (msg sql : String) (after : Bool) (t : Trans)
    (w : World σ) :
    (t.active = busy ∧ command e c fuel busy msg sql after t w = .raise (.usage msg) (t, w)) ∨
    (t.active ≠ busy ∧ ∃ r' w', Req.exec e c fuel (Req.new.append sql) w = .ret () (r', w') ∧
      command e c fuel busy msg sql after t w = .ret () (⟨after⟩, Req.destroy e r' w')) ∨
    (t.active ≠ busy ∧ ∃ x r' w', Req.exec e c fuel (Req.new.append sql) w = .raise x (r', w') ∧
      command e c fuel busy msg sql after t w = .raise x (t, Req.destroy e r' w')) ∨
    (∃ s, command e c fuel busy msg sql after t w = .spin s) := by
  by_cases h : t.active = busy
  · exact .inl ⟨h, command_usage h⟩
  rcases hx : Req.exec e c fuel (Req.new.append sql) w with ⟨⟨⟩, r', w'⟩ | ⟨x, r', w'⟩ | ⟨r', w'⟩
  · exact .inr (.inl ⟨h, r', w', rfl, command_ret h hx⟩)
  · exact .inr (.inr (.inl ⟨h, x, r', w', rfl, command_raise h hx⟩))
  · exact .inr (.inr (.inr ⟨(t, w'), by simp [command, h, hx]⟩))

/-! ## §2 The destructor -/

/-- **`~Trans` lets the error of its `ROLLBACK` escape.** When the transaction is active and
    `exec()` of `ROLLBACK;` raises, destroying the `Trans` raises the same error. -/
theorem destroy_raises {fuel : Nat} {t : Trans} {w : World σ} {x : Error} {s : Req × World σ}
    (ht : t.active = true) (hx : Req.exec e c fuel (Req.new.append "ROLLBACK;") w = .raise x s) :
    destroy e c fuel t w = .raise x (t, Req.destroy e s.1 s.2) := by
  simp only [destroy, ht, if_true, abort]
  exact command_raise (by simp [ht]) hx

/-- A `Trans` begins; a `COMMIT;` run through another `Req` on the connection ends the
    transaction; sqlite then fails the destructor's `ROLLBACK` with `SQLITE_ERROR` ("cannot
    rollback - no transaction is active"), and the destructor raises it. -/
theorem destroy_raises_after_commit :
    (begin tapeEngine ⟨some 0⟩ 3 new ⟨⟨[], [], [.ok (some 0) 6, .ok (some 1) 7, .ok (some 2) 9],
        [sqliteDone, sqliteDone, sqliteError], none⟩, []⟩).state.1 = ⟨true⟩ ∧
    ∃ s, destroy tapeEngine ⟨some 0⟩ 3 ⟨true⟩
      (Req.exec tapeEngine ⟨some 0⟩ 3 (Req.new.append "COMMIT;")
        (begin tapeEngine ⟨some 0⟩ 3 new ⟨⟨[], [], [.ok (some 0) 6, .ok (some 1) 7, .ok (some 2) 9],
          [sqliteDone, sqliteDone, sqliteError], none⟩, []⟩).state.2).state.2 =
      .raise (.engine sqliteError) s :=
  ⟨rfl, _, destroy_raises rfl rfl⟩

end Trans

end Sqld
