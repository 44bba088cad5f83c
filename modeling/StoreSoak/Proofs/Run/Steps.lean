import StoreSoak.Proofs.Pool.Steps
import StoreSoak.Run

/-!
What one event does to a run.

* `Advanced` lists the moves of a run itself, one rule for each way in which a move can come out;
  `advanced` says that a run that is `Ready` makes its next move.
* `Stepped` lists what can happen to a run; `stepped` says that every event does one of these
  things, and `run_induction` carries a property of runs along.
* `looked`, `putText` and `closed` are the run after a look for the sentinel key, after a report was
  put out, and after its connection was closed.
-/

namespace StoreSoak

namespace Run

variable {σ : Type}

/-- The run after its look for the sentinel key, which is printed or noted. -/
def looked (s : Setting σ) (r : Run σ) (db : Database σ) : Run σ :=
  let a := db.keyExists s.config.sentinelKey r.pool.store
  let r := { r with
    pool := { r.pool with store := a.2 } }.did (.lookedUp s.config.sentinelKey r.pool.now)
  match a.1 with
  | .ok present => r.did (.printed (sentinelLine s.config.sentinelKey present))
  | .error e => r.note (.sentinelFailed s.config.sentinelKey e)

/-- The run after a report was put out with the given text. -/
def putText (r : Run σ) (report : Report) (text : String) : Run σ :=
  if text.isEmpty then r.did (.reported report) else (r.did (.reported report)).did (.printed text)

/-- The run after its connection was closed, however that went. -/
def closed (s : Setting σ) (r : Run σ) : Run σ :=
  { r with pool := { r.pool with store := (s.connection.close r.pool.store).2 } }.did
    (.closed r.pool.now)

section Parts

variable (s : Setting σ) (r : Run σ) (db : Database σ) (report : Report) (text : String)

/-- In the pool the look leaves its marks on the store and the notices. -/
lemma looked_pool : (r.looked s db).pool = { r.pool with
    store := (db.keyExists s.config.sentinelKey r.pool.store).2
    notices := (r.looked s db).pool.notices } := by
  rw [looked]
  dsimp only
  split <;> rfl

lemma looked_store :
    (r.looked s db).pool.store = (db.keyExists s.config.sentinelKey r.pool.store).2 := by
  rw [looked_pool]

lemma looked_workers : (r.looked s db).pool.workers = r.pool.workers := by
  rw [looked_pool]

lemma looked_isOver : (r.looked s db).pool.isOver = r.pool.isOver := by
  rw [Pool.isOver, looked_workers, Pool.isOver]

lemma looked_database : (r.looked s db).database = r.database := by
  rw [looked]
  dsimp only
  split <;> rfl

lemma looked_pressure : (r.looked s db).pressure = r.pressure := by
  rw [looked]
  dsimp only
  split <;> rfl

lemma mem_looked_trail {d : Deed} (hd : d ∈ (r.looked s db).trail) :
    d = .lookedUp s.config.sentinelKey r.pool.now ∨ (∃ line, d = .printed line) ∨ d ∈ r.trail := by
  rw [looked] at hd
  dsimp only at hd
  split at hd
  · rcases List.mem_cons.mp hd with rfl | hd
    · exact .inr (.inl ⟨_, rfl⟩)
    · rcases List.mem_cons.mp hd with rfl | hd
      · exact .inl rfl
      · exact .inr (.inr hd)
  · rcases List.mem_cons.mp hd with rfl | hd
    · exact .inl rfl
    · exact .inr (.inr hd)

variable {s r db} in
lemma reported_notMem_looked (hr : ∀ t, .reported t ∉ r.trail) :
    ∀ t, .reported t ∉ (r.looked s db).trail := by
  intro t ht
  rcases mem_looked_trail _ _ _ ht with h | ⟨line, h⟩ | h
  · cases h
  · cases h
  · exact hr t h

lemma putText_database : (r.putText report text).database = r.database := by
  rw [putText]
  split <;> rfl

lemma putText_pool : (r.putText report text).pool = r.pool := by
  rw [putText]
  split <;> rfl

lemma putText_goTo_pool (phase : Phase) :
    ((r.putText report text).goTo phase).pool = r.pool :=
  putText_pool r report text

lemma putText_pressure : (r.putText report text).pressure = r.pressure := by
  rw [putText]
  split <;> rfl

lemma mem_putText_trail {d : Deed} :
    d ∈ (r.putText report text).trail ↔
      (d = .printed text ∧ text.isEmpty = false) ∨ d = .reported report ∨ d ∈ r.trail := by
  rw [putText]
  split <;> rename_i h <;> simp [did, h]

variable {r report text} in
/-- The report of a run is its only one. -/
lemma mem_reported_iff (hr : ∀ t, .reported t ∉ r.trail) (t : Report) :
    .reported t ∈ (r.putText report text).trail ↔ t = report := by
  rw [mem_putText_trail]
  constructor
  · rintro (⟨h, -⟩ | h | h)
    · cases h
    · exact Deed.reported.inj h
    · exact absurd h (hr t)
  · rintro rfl
    exact .inr (.inl rfl)

lemma gathered_isOver : r.gathered.pool.isOver = r.pool.isOver :=
  Pool.requestShutdown_isOver (r.pool.note .allJoined)

end Parts

/-! ### The rules -/

/-- The moves of a run itself. -/
inductive Advanced (s : Setting σ) (r : Run σ) : Run σ → Prop where
  /-- There is no database of the index asked for. -/
  | refused {e : StoreError} (hp : r.phase = .selecting)
      (hdb : s.connection.database s.config.database r.pool.store = .error e) :
      Advanced s r ((r.did (.selected s.config.database)).finish (.failed (.store e)))
  | crowded {db : Database σ} {b : Breakdown} (hp : r.phase = .selecting)
      (hdb : s.connection.database s.config.database r.pool.store = .ok db)
      (hb : crowding? s = some b) :
      Advanced s r ((r.did (.selected s.config.database)).finish (.broken b))
  | launch {db : Database σ} (hp : r.phase = .selecting)
      (hdb : s.connection.database s.config.database r.pool.store = .ok db)
      (hb : crowding? s = none) :
      Advanced s r ((r.did (.selected s.config.database)).launch s db)
  | release (hp : r.phase = .launched) : Advanced s r (r.release s)
  | gathered (hp : r.phase = .gathering) (hover : r.pool.isOver = true) :
      Advanced s r r.gathered
  | retired (hp : r.phase = .retiring) (hover : r.pressure.isOver = true) :
      Advanced s r ((r.note (.chainsRetired r.pressure.total)).goTo .checking)
  | overflowed {db : Database σ} {o : Overflow} (hp : r.phase = .checking)
      (hdb : r.database = some db)
      (ho : Report.ofAccounts
        (r.accounts s (db.keyExists s.config.sentinelKey r.pool.store).1) = .error o) :
      Advanced s r ((r.looked s db).finish (.broken (.overflow o)))
  | looked {db : Database σ} {report : Report} (hp : r.phase = .checking)
      (hdb : r.database = some db)
      (ho : Report.ofAccounts
        (r.accounts s (db.keyExists s.config.sentinelKey r.pool.store).1) = .ok report) :
      Advanced s r ((r.looked s db).goTo
        (.reporting (db.keyExists s.config.sentinelKey r.pool.store).1 report))
  | unreported {sentinel : Except StoreError Bool} {report : Report} {f : IoFault}
      (hp : r.phase = .reporting sentinel report) (hf : s.reporter report = .error f) :
      Advanced s r ((r.did (.reported report)).finish (.failed (.io f)))
  | reported {sentinel : Except StoreError Bool} {report : Report} {text : String}
      (hp : r.phase = .reporting sentinel report) (ht : s.reporter report = .ok text) :
      Advanced s r ((r.putText report text).goTo
        (if s.config.waitForAck && report.failures.isEmpty then .acknowledging sentinel report
          else .closing sentinel report))
  | unacknowledged {sentinel : Except StoreError Bool} {report : Report} {f : IoFault}
      (hp : r.phase = .acknowledging sentinel report) (hf : acknowledge s.input = .error f) :
      Advanced s r (((r.did (.printed prompt)).did .awaited).finish (.failed (.io f)))
  | acknowledged {sentinel : Except StoreError Bool} {report : Report}
      (hp : r.phase = .acknowledging sentinel report) (hf : acknowledge s.input = .ok ()) :
      Advanced s r
        (((r.did (.printed prompt)).did .awaited).goTo (.closing sentinel report))
  | unclosed {sentinel : Except StoreError Bool} {report : Report} {e : StoreError}
      (hp : r.phase = .closing sentinel report)
      (hc : (s.connection.close r.pool.store).1 = .error e) :
      Advanced s r ((r.closed s).finish (.failed (.store e)))
  | closed {sentinel : Except StoreError Bool} {report : Report}
      (hp : r.phase = .closing sentinel report)
      (hc : (s.connection.close r.pool.store).1 = .ok ()) :
      Advanced s r (((r.closed s).note .released).finish
        (verdict (Report.failuresOf (r.pool.reports?.getD [])) sentinel report))

lemma advanced_select (s : Setting σ) {r : Run σ} (hp : r.phase = .selecting) :
    Advanced s r (r.select s) := by
  rw [select]
  split
  · rename_i e hdb
    exact .refused hp hdb
  · rename_i db hdb
    split
    · rename_i b hb
      exact .crowded hp hdb hb
    · rename_i hb
      exact .launch hp hdb hb

/-- The accounts do not depend on what the look for the sentinel key leaves behind. -/
lemma lookUp_eq (s : Setting σ) (r : Run σ) (db : Database σ) :
    r.lookUp s db =
      match Report.ofAccounts
        (r.accounts s (db.keyExists s.config.sentinelKey r.pool.store).1) with
      | .error o => (r.looked s db).finish (.broken (.overflow o))
      | .ok report => (r.looked s db).goTo
        (.reporting (db.keyExists s.config.sentinelKey r.pool.store).1 report) := by
  rw [lookUp, looked]
  cases (db.keyExists s.config.sentinelKey r.pool.store).1 <;> rfl

lemma advanced_lookUp (s : Setting σ) {r : Run σ} {db : Database σ} (hp : r.phase = .checking)
    (hdb : r.database = some db) : Advanced s r (r.lookUp s db) := by
  rw [lookUp_eq]
  split
  · rename_i o ho
    exact .overflowed hp hdb ho
  · rename_i report ho
    exact .looked hp hdb ho

lemma advanced_putOut (s : Setting σ) {r : Run σ} {sentinel : Except StoreError Bool}
    {report : Report} (hp : r.phase = .reporting sentinel report) :
    Advanced s r (r.putOut s sentinel report) := by
  rw [putOut]
  cases ht : s.reporter report with
  | error f => exact .unreported hp ht
  | ok text =>
      have hgoTo (q : Run σ) : (if s.config.waitForAck && report.failures.isEmpty then
          q.goTo (.acknowledging sentinel report) else q.goTo (.closing sentinel report)) =
          q.goTo (if s.config.waitForAck && report.failures.isEmpty then
            .acknowledging sentinel report else .closing sentinel report) := by
        split <;> rfl
      have h := Advanced.reported hp ht
      rw [← hgoTo] at h
      exact h

lemma advanced_await (s : Setting σ) {r : Run σ} {sentinel : Except StoreError Bool}
    {report : Report} (hp : r.phase = .acknowledging sentinel report) :
    Advanced s r (r.await s sentinel report) := by
  rw [await]
  cases hf : acknowledge s.input with
  | error f => exact .unacknowledged hp hf
  | ok u => exact .acknowledged hp hf

lemma advanced_close (s : Setting σ) {r : Run σ} {sentinel : Except StoreError Bool}
    {report : Report} (hp : r.phase = .closing sentinel report) :
    Advanced s r (r.close s sentinel report) := by
  rw [close]
  cases hc : (s.connection.close r.pool.store).1 with
  | error e => exact .unclosed hp hc
  | ok u => exact .closed hp hc

/-- Whether a run has nothing to wait for and is not at its end. -/
def Ready (r : Run σ) : Prop :=
  match r.phase with
  | .gathering => r.pool.isOver = true
  | .retiring => r.pressure.isOver = true
  | .checking => r.database ≠ none
  | .ended _ => False
  | _ => True

/-- A run that has nothing to wait for makes its next move. -/
lemma advanced (s : Setting σ) (r : Run σ) (h : r.Ready) : Advanced s r (r.control s) := by
  rw [Ready] at h
  rw [control]
  cases hp : r.phase with
  | selecting => exact advanced_select s hp
  | launched => exact .release hp
  | gathering =>
      rw [hp] at h
      dsimp only
      rw [if_pos h]
      exact .gathered hp h
  | retiring =>
      rw [hp] at h
      dsimp only
      rw [if_pos h]
      exact .retired hp h
  | checking =>
      rw [hp] at h
      cases hdb : r.database with
      | none => exact absurd hdb h
      | some db => exact advanced_lookUp s hp hdb
  | reporting sentinel report => exact advanced_putOut s hp
  | acknowledging sentinel report => exact advanced_await s hp
  | closing sentinel report => exact advanced_close s hp
  | ended o =>
      rw [hp] at h
      exact h.elim

/-- What can happen to a run. -/
inductive Stepped (s : Setting σ) (r : Run σ) : Event → Run σ → Prop where
  | control {r' : Run σ} (h : Advanced s r r') : Stepped s r .control r'
  | turn {i : ℕ} {db : Database σ} (hdb : r.database = some db) :
      Stepped s r (.turn i) { r with pool := r.pool.step db (.turn i) }
  | interrupt {i : ℕ} {db : Database σ} (hdb : r.database = some db) :
      Stepped s r (.interrupt i) { r with pool := r.pool.step db (.interrupt i) }
  | link (i : ℕ) :
      Stepped s r (.link i)
        { r with
          pressure := (r.pressure.step r.pool.signals.shutdown i).1
          pool := { r.pool with
            notices := (r.pressure.step r.pool.signals.shutdown i).2 ++ r.pool.notices } }
  | ring {due : ℕ} {limit : Duration} (ha : r.alarm = some due)
      (hl : s.config.deadline = some limit) (hdue : due ≤ r.pool.now) :
      Stepped s r .alarm
        { r with alarm := none, pool := (r.pool.note (.deadlineReached limit)).requestShutdown }
  | cancel : Stepped s r .cancel { r with pool := r.pool.requestShutdown }
  | tick (d : ℕ) : Stepped s r (.tick d) { r with pool := { r.pool with now := r.pool.now + d } }
  /-- The run waits, or it is at its end. -/
  | idle (e : Event) : Stepped s r e r

/-- Every event follows one of the rules. -/
theorem stepped (s : Setting σ) (r : Run σ) (e : Event) : Stepped s r e (r.step s e) := by
  cases e with
  | control =>
      -- a run that is not ready in its phase stays as it is
      rw [step, control]
      split
      · rename_i hp
        exact .control (advanced_select s hp)
      · rename_i hp
        exact .control (.release hp)
      · rename_i hp
        split
        · rename_i hover
          exact .control (.gathered hp hover)
        · exact .idle _
      · rename_i hp
        split
        · rename_i hover
          exact .control (.retired hp hover)
        · exact .idle _
      · rename_i hp
        split
        · rename_i db hdb
          exact .control (advanced_lookUp s hp hdb)
        · exact .idle _
      · rename_i sentinel report hp
        exact .control (advanced_putOut s hp)
      · rename_i sentinel report hp
        exact .control (advanced_await s hp)
      · rename_i sentinel report hp
        exact .control (advanced_close s hp)
      · exact .idle _
  | turn i =>
      rw [step, movePool]
      split
      · rename_i db hdb
        exact .turn hdb
      · exact .idle _
  | interrupt i =>
      rw [step, movePool]
      split
      · rename_i db hdb
        exact .interrupt hdb
      · exact .idle _
  | link i => exact .link i
  | alarm =>
      rw [step, ring]
      split
      · rename_i due limit ha hl
        split
        · rename_i hdue
          exact .ring ha hl hdue
        · exact .idle _
      · exact .idle _
  | cancel => exact .cancel
  | tick d => exact .tick d

/-! ### Runs -/

@[simp] lemma run_nil (s : Setting σ) (r : Run σ) : r.run s [] = r := rfl

@[simp] lemma run_cons (s : Setting σ) (r : Run σ) (e : Event) (events : List Event) :
    r.run s (e :: events) = (r.step s e).run s events := rfl

/-- What holds at first and is kept by every rule holds after every run. -/
theorem run_induction {s : Setting σ} {P : Run σ → Prop}
    (hstep : ∀ {r r' : Run σ} {e : Event}, P r → Stepped s r e r' → P r') {r : Run σ} (h : P r)
    (events : List Event) : P (r.run s events) := by
  induction events generalizing r with
  | nil => exact h
  | cons e events ih => exact ih (hstep h (stepped s r e))

end Run

end StoreSoak
