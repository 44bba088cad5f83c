import StoreSoak.Proofs.Remote.Address
import StoreSoak.Proofs.Remote.Agreement

/-!
The database that an accessor works on.

A pipe works on the database that it selected last, and it only selects one when it is opened: that
of its endpoint, unless this is the one that every pipe begins with. Whether there is an accessor is
decided by the options, but these reach the endpoint through the URL alone. So the two need not
agree.

* `Pipe.selected` is the database that a pipe works on.
* `connect_selected`: an open pipe works on the database of its endpoint.
* `selected_onPipe`: no call of an accessor changes the database.
* `works_on_asked_iff`: when an accessor works on the database that it was asked for.
-/

namespace StoreSoak.Remote

/-- The database that a command selects, if it selects one. -/
def selects? : Command → Option ℤ
  | ["SELECT", index] => Text.integer? index.toList
  | _ => none

/-- The database that a pipe works on: the one that it selected last, and zero before that. -/
def Pipe.selected {σ : Type} (p : Pipe σ) : ℤ :=
  (p.sent.findSome? selects?).getD 0

/-! ### What is sent -/

section Commands

variable {e : Endpoint} {c : Command}

lemma selects?_of_name {name : String} (hname : name ≠ "SELECT") (arguments : List String) :
    selects? (name :: arguments) = none := by
  rw [selects?.eq_def]
  split
  · rename_i heq
    exact absurd (List.cons.inj heq).1 hname
  · rfl

/-- Making a client known selects nothing. -/
lemma selects?_introduction {named : Bool} (hc : c ∈ introduction e named) :
    selects? c = none := by
  rw [introduction] at hc
  split at hc
  · cases hc
    exact selects?_of_name (by decide) _
  · obtain ⟨password, -, rfl⟩ := Option.map_eq_some_iff.mp hc
    exact selects?_of_name (by decide) _

/-- What is sent to open a pipe selects the database of the endpoint, if any but zero. -/
lemma findSome?_opening {url : String} (he : Endpoint.ofUrl? url = .ok e) (named : Bool) :
    ((introduction e named).toList ++ (selection e).toList).reverse.findSome? selects? =
      if e.database = 0 then none else some e.database := by
  have hintroduced : (introduction e named).toList.reverse.findSome? selects? = none := by
    rw [List.findSome?_eq_none_iff]
    intro c hc
    exact selects?_introduction (Option.mem_toList.mp (List.mem_reverse.mp hc))
  rw [List.reverse_append, List.findSome?_append, hintroduced, Option.or_none, selection]
  split
  · rfl
  · have hread : selects? ["SELECT", String.ofList (Text.integer e.database)] =
        some e.database := by
      obtain ⟨u, -, hu⟩ := Option.bind_eq_some_iff.mp (Endpoint.database_of_url he)
      rw [selects?, String.toList_ofList, Text.integer?_integer, if_pos (Url.database?_range hu)]
    rw [Option.toList_some, List.reverse_singleton, List.findSome?_singleton, hread]

end Commands

/-! ### Pipes -/

section Pipes

variable {σ : Type} {net : Network σ} {limit : Duration} {p : Pipe σ} {c : Command}

/-- A command has reached the server, or there is no reply. -/
lemma sent_exchange (net : Network σ) (p : Pipe σ) (c : Command) :
    (p.exchange net c).2.sent = c :: p.sent ∨
      (p.exchange net c).2.sent = p.sent ∧ ∃ t, (p.exchange net c).1 = .error t := by
  rw [Pipe.exchange]
  split
  · exact Or.inr ⟨rfl, _, rfl⟩
  · dsimp only
    cases (net.answer c p.server).1 with
    | reply v => exact Or.inl rfl
    | gone => exact Or.inl rfl
    | silence => exact Or.inl rfl
    | ignored => exact Or.inr ⟨rfl, _, rfl⟩

/-- Commands that are all replied to have all reached the server. -/
lemma sent_exchangeAll {cs : List Command} {vs : List Value}
    (h : (p.exchangeAll net cs).1 = .ok vs) :
    (p.exchangeAll net cs).2.sent = cs.reverse ++ p.sent := by
  induction cs generalizing p vs with
  | nil => rfl
  | cons c cs ih =>
      rw [Pipe.exchangeAll] at h ⊢
      cases hv : (p.exchange net c).1 with
      | error t =>
          rw [hv] at h
          cases h
      | ok v =>
          rw [hv] at h
          dsimp only at h ⊢
          -- a command that was answered has been sent
          have hsent : (p.exchange net c).2.sent = c :: p.sent := by
            rcases sent_exchange net p c with hsent | ⟨-, t, ht⟩
            · exact hsent
            · rw [hv] at ht
              cases ht
          cases hvs : ((p.exchange net c).2.exchangeAll net cs).1 with
          | error t =>
              rw [hvs] at h
              cases h
          | ok vs => rw [ih hvs, hsent, List.reverse_cons, List.append_assoc, List.singleton_append]

/-! ### Opening -/

variable {e : Endpoint} {url : String}

/-- After a greeting that the server answers, the pipe works on the database of the endpoint. -/
lemma selected_greet (he : Endpoint.ofUrl? url = .ok e) {named : Bool} {w : Welcome}
    (hp : p.selected = 0 ∨ p.selected = e.database) (h : (greet net limit e named p).1 = .ok w) :
    (greet net limit e named p).2.selected = e.database := by
  rw [greet] at h ⊢
  split at h
  · cases h
  · cases h
  · rename_i replies hreplies
    have hselected : (p.exchangeAll net ((introduction e named).toList ++
        (selection e).toList)).2.selected = e.database := by
      rw [Pipe.selected, sent_exchangeAll hreplies, List.findSome?_append,
        findSome?_opening he named]
      split
      -- database zero is selected by no command, so what was selected before stays
      · rename_i hzero
        rw [Option.none_or]
        rcases hp with hp | hp
        · exact hp.trans hzero.symm
        · exact hp
      · rfl
    split <;> exact hselected

/-- A pipe that is settled works on the database of the endpoint. -/
lemma selected_settle (he : Endpoint.ofUrl? url = .ok e) (hp : p.selected = 0)
    (h : (settle net limit e p).1 = .ok ()) : (settle net limit e p).2.selected = e.database := by
  rw [settle] at h ⊢
  dsimp only at h ⊢
  cases hw : (greet net limit e true p).1 with
  | error f =>
      rw [hw] at h
      cases h
  | ok w =>
      have hfirst := selected_greet he (Or.inl hp) hw
      cases w with
      | accepted => exact hfirst
      -- the second greeting repeats the selection of the first
      | nameless =>
          rw [hw] at h
          dsimp only at h
          cases hw' : (greet net limit e false (greet net limit e true p).2).1 with
          | error f =>
              rw [hw'] at h
              cases h
          | ok w' => exact selected_greet he (Or.inr hfirst) hw'

/-- An open pipe works on the database of its endpoint. -/
lemma connect_selected {address : String} {options : ConnectOptions}
    (h : (connect net address options).pipe = .ok p) :
    ∃ e, Endpoint.ofUrl? (connectionUrl address options.database) = .ok e ∧
      p.selected = e.database := by
  rw [connect] at h
  dsimp only at h
  split at h
  · cases h
  · rename_i e he
    split at h
    · cases h
    · rename_i server _
      refine ⟨e, he, ?_⟩
      dsimp only at h
      generalize hq : (⟨server, false, [], [.connecting (connectionUrl address options.database)
        options.syncTimeout]⟩ : Pipe σ) = q at h
      have hzero : q.selected = 0 := by
        rw [← hq]
        rfl
      cases hsettled : (settle net options.syncTimeout e q).1 with
      | error f =>
          rw [hsettled] at h
          cases h
      | ok =>
          rw [hsettled] at h
          cases h
          exact selected_settle he hzero hsettled

/-! ### Calls -/

lemma selected_exchange (net : Network σ) (p : Pipe σ) (hc : selects? c = none) :
    (p.exchange net c).2.selected = p.selected := by
  rcases sent_exchange net p c with hsent | ⟨hsent, -⟩
  · rw [Pipe.selected, hsent, List.findSome?_cons_of_isNone (by rw [hc]; rfl)]
    rfl
  · rw [Pipe.selected, hsent]
    rfl

lemma selected_send (hc : selects? c = none) : (p.send net c).2.selected = p.selected := by
  have hexchange := selected_exchange net p hc
  rw [Pipe.send]
  split
  · exact hexchange
  · split <;> exact hexchange

/-- A transaction runs the script, and may have to load it. -/
lemma selected_invoke (net : Network σ) (p : Pipe σ) (t : Transaction) :
    (p.invoke net t).2.selected = p.selected := by
  have hcall (p : Pipe σ) : (p.send net (Script.call t)).2.selected = p.selected :=
    selected_send (selects?_of_name (by decide) _)
  have hload (p : Pipe σ) : (p.send net Script.load).2.selected = p.selected :=
    selected_send (selects?_of_name (by decide) _)
  rw [Pipe.invoke]
  split
  · exact hcall p
  · split
    · dsimp only
      split
      · rw [hload, hcall]
      · rw [hcall, hload, hcall]
    · exact hcall p

lemma selected_call {α : Type} (read : Value → Except Failure α)
    (a : Except Trouble Value × Pipe σ) : (Pipe.call limit read a).2.selected = a.2.selected := by
  rw [Pipe.call]
  split
  · rfl
  · split <;> rfl

lemma selected_set (key value : String) (f : Flags) :
    (p.set net limit key value f).2.selected = p.selected := by
  have hsend (p : Pipe σ) (arguments : List String) :
      (p.send net ("SET" :: arguments)).2.selected = p.selected :=
    selected_send (selects?_of_name (by decide) arguments)
  have hnoted : (if f.highPriority then p.note (.urgentSet key) else p).selected = p.selected := by
    split <;> rfl
  rw [Pipe.set, ← hnoted]
  generalize (if f.highPriority then p.note (.urgentSet key) else p) = q
  split <;> rw [selected_call, hsend]

lemma selected_execute (t : Transaction) :
    (p.execute net limit t).2.selected = p.selected := by
  have hnoted : (if t.writes.any fun w => w.flags.highPriority then p.note .urgentTransaction
      else p).selected = p.selected := by
    split <;> rfl
  rw [Pipe.execute, ← hnoted]
  generalize (if t.writes.any fun w => w.flags.highPriority then p.note .urgentTransaction
    else p) = q
  split <;> exact selected_invoke net q t

/-- No call of an accessor changes the database. -/
lemma selected_onPipe (o : Operation) : (o.onPipe net limit p).2.selected = p.selected := by
  cases o with
  | set key value f => exact selected_set key value f
  | get key =>
      show (Pipe.call limit Value.text? (p.send net ["GET", key])).2.selected = _
      rw [selected_call, selected_send (selects?_of_name (by decide) _)]
  | keyExists key =>
      show (Pipe.call limit Value.truth? (p.send net ["EXISTS", key])).2.selected = _
      rw [selected_call, selected_send (selects?_of_name (by decide) _)]
  | execute t => exact selected_execute t

lemma selected_answers (operations : List Operation) :
    (Operation.answers (Operation.onPipe net limit) p operations).2.selected = p.selected := by
  induction operations generalizing p with
  | nil => rfl
  | cons o rest ih => rw [Operation.answers, ih, selected_onPipe]

end Pipes

/-! ### What is asked for -/

/-- **An accessor works on the database that it was asked for** if the address leaves the database to
the options, or happens to name this one by itself, and in no other case. So it is for every call
that is made, one after the other, and whoever is at the other end of the pipe. -/
theorem works_on_asked_iff {σ : Type} {net : Network σ} {address : String}
    {options : ConnectOptions} {index : ℤ} {p : Pipe σ}
    (hopen : (connect net address options).pipe = .ok p) (hasked : database options index = .ok ())
    (operations : List Operation) :
    (Operation.answers (Operation.onPipe net options.syncTimeout) p operations).2.selected = index ↔
      LeavesDatabase address ∨ namedDatabase? address = some index := by
  obtain ⟨e, he, hselected⟩ := connect_selected hopen
  have hindex : index = options.database := by
    rw [database] at hasked
    split at hasked
    · assumption
    · cases hasked
  rw [selected_answers, hselected]
  by_cases hleaves : LeavesDatabase address
  · exact iff_of_true ((database_of_leaves hleaves he).trans hindex.symm) (Or.inl hleaves)
  · rw [or_iff_right hleaves, database_of_names hleaves he, Option.some_inj]

/-- A server that agrees to everything, and an address with dots at its end. -/
theorem works_on_asked_at_host :
    let net : Network Unit := ⟨fun _ => .ok (), fun _ s => (.reply (.status "OK"), s)⟩
    let options : ConnectOptions := ⟨Duration.zero, 5⟩
    ∃ p, (connect net "cache:6380/x/.." options).pipe = .ok p ∧ database options 5 = .ok () ∧
      (Operation.answers (Operation.onPipe net options.syncTimeout) p
        [.set "k" "v" Flags.none, .get "k"]).2.selected = 5 := by
  intro net options
  have hpath : "cache:6380/x/..".toList.all Url.inPath = true := by decide
  have hleaves : LeavesDatabase "cache:6380/x/.." :=
    ⟨by decide, fun c hc => by simpa [Url.inPath] using List.all_eq_true.mp hpath c hc⟩
  have hopen : (connect net "cache:6380/x/.." options).pipe.isOk = true := by decide +kernel
  cases hp : (connect net "cache:6380/x/.." options).pipe with
  | error f =>
      rw [hp] at hopen
      cases hopen
  | ok p => exact ⟨p, rfl, rfl, (works_on_asked_iff hp rfl _).mpr (Or.inl hleaves)⟩

/-- The database that was asked for is not the one that is worked on: a URL names another one, that of
a socket in its query and that of a host in its path, and what begins a query keeps the database that
was asked for out of the path. -/
theorem works_on_another_database :
    let net : Network Unit := ⟨fun _ => .ok (), fun _ s => (.reply (.status "OK"), s)⟩
    let selected (address : String) (asked : ℤ) : Except StoreError ℤ :=
      let options : ConnectOptions := ⟨Duration.zero, asked⟩
      (database options asked).bind fun _ => (connect net address options).pipe.map Pipe.selected
    selected "redis+unix:///run/store.sock?db=3" 0 = .ok 3 ∧
      selected "redis://cache:6380/2" 0 = .ok 2 ∧ selected "cache:6380?" 5 = .ok 0 := by
  decide +kernel

end StoreSoak.Remote
