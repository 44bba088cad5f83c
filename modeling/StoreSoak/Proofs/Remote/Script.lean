import Mathlib.Tactic.Ring
import StoreSoak.Proofs.Remote.Lawful
import StoreSoak.Proofs.Text.Numeral

/-!
What the script for transactions does.

* `program` is the script: `read_text` says that the text of the script is read as this program.
* `Packed`: where the script finds the conditions and the writes of a transaction among its keys and
  arguments.
* `evaluate_text`: at the keys and arguments of a transaction the script commits it.
-/

namespace StoreSoak.Remote.Script

open Lua Server

/-! ### The program -/

/-- Judges the condition at the number of the loop. -/
def check : List Statement :=
  [ .define "exists"
      (.equal (.call "redis.call" [.text "EXISTS", .item (.name "KEYS") (.name "i")]) (.number 1)),
    .test
      (.unequal (.equal (.item (.name "ARGV") (.plus (.name "i") (.number 1))) (.text "1"))
        (.name "exists"))
      [.answer (.number 0)] ]

/-- Writes the value at the number of the loop. -/
def write : List Statement :=
  [ .perform (.call "redis.call" [.text "SET", .item (.name "KEYS") (.name "i"),
      .item (.name "ARGV") (.plus (.name "i") (.number 1))]) ]

/-- The script as a program. -/
def program : List Statement :=
  [ .define "n" (.call "tonumber" [.item (.name "ARGV") (.number 1)]),
    .count "i" (.number 1) (.name "n") check,
    .count "i" (.plus (.name "n") (.number 1)) (.length (.name "KEYS")) write,
    .answer (.number 1) ]

open Token in
/-- The tokens of the script. -/
def tokens : List Token :=
  [ word "local", word "n", symbol "=", word "tonumber", symbol "(", word "ARGV", symbol "[",
    number 1, symbol "]", symbol ")",
    word "for", word "i", symbol "=", number 1, symbol ",", word "n", word "do",
    word "local", word "exists", symbol "=", word "redis.call", symbol "(", .text "EXISTS",
    symbol ",", word "KEYS", symbol "[", word "i", symbol "]", symbol ")", symbol "==", number 1,
    word "if", symbol "(", word "ARGV", symbol "[", word "i", symbol "+", number 1, symbol "]",
    symbol "==", .text "1", symbol ")", symbol "~=", word "exists", word "then",
    word "return", number 0, word "end", word "end",
    word "for", word "i", symbol "=", word "n", symbol "+", number 1, symbol ",", symbol "#",
    word "KEYS", word "do",
    word "redis.call", symbol "(", .text "SET", symbol ",", word "KEYS", symbol "[", word "i",
    symbol "]", symbol ",", word "ARGV", symbol "[", word "i", symbol "+", number 1, symbol "]",
    symbol ")", word "end", word "return", number 1 ]

lemma tokens_text : Lua.tokens? text = some tokens := by
  decide +kernel

lemma block_tokens : Reader.block? (7 * tokens.length + 7) tokens = some (program, []) := rfl

/-- The text of the script is read as the program. -/
lemma read_text : Lua.read text = some program := by
  rw [Lua.read, tokens_text]
  dsimp only [Option.bind_eq_bind, Option.bind_some]
  rw [block_tokens]
  rfl

/-! ### Packing -/

/-- Where a script finds a transaction among its keys and arguments, with places counted from zero:
its conditions and then its writes, and the arguments one place further on. -/
structure Packed (t : Transaction) (keys arguments : List String) : Prop where
  count : arguments[0]? = some (toString t.conditions.length)
  length : keys.length = t.conditions.length + t.writes.length
  condition : ∀ {j : ℕ} {c : Condition}, t.conditions[j]? = some c →
    keys[j]? = some c.key ∧ arguments[j + 1]? = some (mode c)
  write : ∀ {j : ℕ} {w : Write}, t.writes[j]? = some w →
    keys[t.conditions.length + j]? = some w.key ∧
      arguments[t.conditions.length + j + 1]? = some w.value

/-- The keys and arguments of a transaction are where the script looks for them. -/
lemma packed (t : Transaction) : Packed t (keys t) (arguments t) := by
  refine ⟨rfl, ?_, ?_, ?_⟩
  · rw [keys, List.length_append, List.length_map, List.length_map]
  · intro j c hc
    have hj : j < t.conditions.length := (List.getElem?_eq_some_iff.mp hc).1
    rw [keys, arguments, List.getElem?_cons_succ, List.getElem?_append_left (by simpa using hj),
      List.getElem?_append_left (by simpa using hj), List.getElem?_map, List.getElem?_map, hc]
    exact ⟨rfl, rfl⟩
  · intro j w hw
    rw [keys, arguments, List.getElem?_cons_succ, List.getElem?_append_right (by simp),
      List.getElem?_append_right (by simp), List.getElem?_map, List.getElem?_map, List.length_map,
      List.length_map, Nat.add_sub_cancel_left, hw]
    exact ⟨rfl, rfl⟩

/-! ### Running -/

section Running

variable {keys arguments : List String} {env : Env}

/-- The item at a place that is counted from one. -/
lemma item_row {σ : Type} {items : List String} {j : ℕ} {s : String} (hs : items[j]? = some s) :
    ((Lua.Value.row items).item (.number (j + 1)) : Act σ Lua.Value) = pure (.text s) := by
  rw [Lua.Value.item, if_pos (by omega), show ((j : ℤ) + 1 - 1).toNat = j by omega, hs]
  rfl

/-- What a name stands for. -/
lemma eval_name {x : String} {v : Lua.Value} (hx : env.lookup x = some v) :
    eval host env (.name x) = pure v := by
  rw [eval, hx]

/-- The item at the number of a loop. -/
lemma eval_item {r x : String} {items : List String} {j : ℕ} {s : String}
    (hr : env.lookup r = some (.row items)) (hx : env.lookup x = some (.number (j + 1)))
    (hs : items[j]? = some s) : eval host env (.item (.name r) (.name x)) = pure (.text s) := by
  rw [eval, eval_name hr, eval_name hx, Act.pure_bind, Act.pure_bind, item_row hs]

/-- The item one place after the number of a loop. -/
lemma eval_item_next {r x : String} {items : List String} {j : ℕ} {s : String}
    (hr : env.lookup r = some (.row items)) (hx : env.lookup x = some (.number (j + 1)))
    (hs : items[j + 1]? = some s) :
    eval host env (.item (.name r) (.plus (.name x) (.number 1))) = pure (.text s) := by
  have hnext : eval host env (.plus (.name x) (.number 1)) = pure (.number ((j + 1 : ℕ) + 1)) := by
    rw [eval, eval_name hx, eval, Act.pure_bind, Act.pure_bind]
    rfl
  rw [eval, eval_name hr, hnext, Act.pure_bind, Act.pure_bind, item_row hs]

/-- A call whose arguments have values. -/
lemma eval_call (f : String) {es : List Expr} {vs : List Lua.Value}
    (h : List.Forall₂ (fun e v => eval host env e = pure v) es vs) :
    eval host env (.call f es) = host f vs := by
  have hall : evalAll host env es = pure vs := by
    induction h with
    | nil => rw [evalAll]
    | cons hv _ ih => rw [evalAll, hv, ih, Act.pure_bind, Act.pure_bind]
  rw [eval, hall, Act.pure_bind]

lemma host_tonumber (n : ℕ) : host "tonumber" [.text (toString n)] = pure (.number n) := by
  rw [host, if_pos rfl, tonumber, Text.toList_toString, Text.digits?_decimal]

lemma host_exists (key : String) (k : Keyspace) :
    host "redis.call" [.text "EXISTS", .text key] k =
      (.ok (.number (if k.contains key then 1 else 0)), k) := rfl

lemma host_set (key value : String) (k : Keyspace) :
    host "redis.call" [.text "SET", .text key, .text value] k =
      (.ok (.status "OK"), k.insert key value) := rfl

/-- The names that stand once the number of conditions is known. -/
def counted (keys arguments : List String) (n : ℤ) : Env :=
  ("n", .number n) :: globals keys arguments

/-- The names that stand in the bodies of the loops. -/
def within (keys arguments : List String) (n i : ℤ) : Env :=
  ("i", .number i) :: counted keys arguments n

/-- One condition is judged. -/
lemma block_check {n : ℤ} {j : ℕ} {c : Condition} (hkey : keys[j]? = some c.key)
    (hmode : arguments[j + 1]? = some (mode c)) (k : Keyspace) :
    block host check (within keys arguments n (j + 1)) k =
      (.ok (if c.holds (k.contains c.key) then .onward else .answered (.number 0)), k) := by
  have hcall : eval host (within keys arguments n (j + 1))
      (.call "redis.call" [.text "EXISTS", .item (.name "KEYS") (.name "i")]) k =
        (.ok (.number (if k.contains c.key then 1 else 0)), k) := by
    have hkey' : eval host (within keys arguments n (j + 1)) (.item (.name "KEYS") (.name "i")) =
        pure (.text c.key) := eval_item rfl rfl hkey
    rw [eval_call "redis.call" (.cons (by rw [eval]) (.cons hkey' .nil)), host_exists]
  -- the reply is compared with one, and one means that the key is there
  have hexists : eval host (within keys arguments n (j + 1)) (.equal (.call "redis.call"
      [.text "EXISTS", .item (.name "KEYS") (.name "i")]) (.number 1)) k =
        (.ok (.truth (k.contains c.key)), k) := by
    rw [eval, Act.bind_of_ok hcall, eval, Act.pure_bind]
    cases k.contains c.key <;> rfl
  have hmust : eval host (("exists", .truth (k.contains c.key)) :: within keys arguments n (j + 1))
      (.equal (.item (.name "ARGV") (.plus (.name "i") (.number 1))) (.text "1")) =
        pure (.truth (decide (mode c = "1"))) := by
    have hmode' : eval host
        (("exists", .truth (k.contains c.key)) :: within keys arguments n (j + 1))
        (.item (.name "ARGV") (.plus (.name "i") (.number 1))) = pure (.text (mode c)) :=
      eval_item_next rfl rfl hmode
    rw [eval, hmode', Act.pure_bind, eval]
    cases c <;> rfl
  have hdiffers : eval host
      (("exists", .truth (k.contains c.key)) :: within keys arguments n (j + 1))
      (.unequal (.equal (.item (.name "ARGV") (.plus (.name "i") (.number 1))) (.text "1"))
        (.name "exists")) = pure (.truth (!c.holds (k.contains c.key))) := by
    rw [eval, hmust, Act.pure_bind, eval_name rfl]
    cases c <;> cases k.contains _ <;> rfl
  rw [check, block, step, Act.bind_apply, Act.bind_of_ok hexists]
  dsimp only [Act.pure_apply]
  rw [block, step, hdiffers, Act.pure_bind]
  cases c.holds (k.contains c.key) with
  | true => rfl
  | false => rfl

/-- One value is written. -/
lemma block_write {n : ℤ} {j : ℕ} {w : Write} (hkey : keys[j]? = some w.key)
    (hvalue : arguments[j + 1]? = some w.value) (k : Keyspace) :
    block host Script.write (within keys arguments n (j + 1)) k =
      (.ok .onward, k.insert w.key w.value) := by
  have hkey' : eval host (within keys arguments n (j + 1)) (.item (.name "KEYS") (.name "i")) =
      pure (.text w.key) := eval_item rfl rfl hkey
  have hvalue' : eval host (within keys arguments n (j + 1))
      (.item (.name "ARGV") (.plus (.name "i") (.number 1))) = pure (.text w.value) :=
    eval_item_next rfl rfl hvalue
  rw [Script.write, block, step,
    eval_call "redis.call" (.cons (by rw [eval]) (.cons hkey' (.cons hvalue' .nil))),
    Act.bind_apply, Act.bind_of_ok (host_set w.key w.value k)]
  rfl

/-- The item at a place heads what is left there. -/
lemma of_drop_eq_cons {α : Type} {l as : List α} {a : α} {j : ℕ} (h : l.drop j = a :: as) :
    l[j]? = some a ∧ l.drop (j + 1) = as := by
  refine ⟨?_, ?_⟩
  · rw [← List.head?_drop, h, List.head?_cons]
  · rw [← List.tail_drop, h, List.tail_cons]

/-- The first loop judges the conditions that are left, up to the first one that does not hold. -/
lemma through_check {t : Transaction} (h : Packed t keys arguments) {n : ℤ} {j : ℕ}
    {cs : List Condition} (hcs : t.conditions.drop j = cs) (k : Keyspace) :
    through (fun i => block host check (within keys arguments n i)) cs.length (j + 1) k =
      (.ok (if cs.all fun c => c.holds (k.contains c.key) then .onward else .answered (.number 0)),
        k) := by
  -- the script counts places, so the induction goes over the conditions from the place on
  induction cs generalizing j with
  | nil => rfl
  | cons c cs ih =>
      obtain ⟨hc, hrest⟩ := of_drop_eq_cons hcs
      obtain ⟨hkey, hmode⟩ := h.condition hc
      have hblock := block_check hkey hmode k (n := n)
      have hnext : (j : ℤ) + 1 + 1 = ((j + 1 : ℕ) : ℤ) + 1 := by push_cast; ring
      rw [List.length_cons, through, Act.bind_of_ok hblock, List.all_cons]
      cases c.holds (k.contains c.key) with
      | true =>
          rw [if_pos rfl, Bool.true_and, hnext]
          exact ih hrest
      | false => rfl

/-- The second loop writes the values that are left, in their order. -/
lemma through_write {t : Transaction} (h : Packed t keys arguments) {n : ℤ} {j : ℕ}
    {ws : List Write} (hws : t.writes.drop j = ws) (k : Keyspace) :
    through (fun i => block host Script.write (within keys arguments n i)) ws.length
        ((t.conditions.length + j : ℕ) + 1) k =
      (.ok .onward, ws.foldl (fun k w => k.insert w.key w.value) k) := by
  induction ws generalizing j k with
  | nil => rfl
  | cons w ws ih =>
      obtain ⟨hw, hrest⟩ := of_drop_eq_cons hws
      obtain ⟨hkey, hvalue⟩ := h.write hw
      have hblock := block_write hkey hvalue k (n := n)
      have hnext : ((t.conditions.length + j : ℕ) : ℤ) + 1 + 1 =
          ((t.conditions.length + (j + 1) : ℕ) : ℤ) + 1 := by push_cast; ring
      rw [List.length_cons, through, Act.bind_of_ok hblock, List.foldl_cons]
      dsimp only
      rw [hnext]
      exact ih hrest _

/-- A loop whose bounds have values. -/
lemma step_count {x : String} {first last : Expr} {body : List Statement} {low high : ℤ}
    (hlow : eval host env first = pure (.number low))
    (hhigh : eval host env last = pure (.number high)) :
    step host (.count x first last body) env =
      (do
        let flow ← through (fun i => block host body ((x, .number i) :: env)) (high + 1 - low).toNat
          low
        pure (env, flow)) := by
  rw [step, hlow, hhigh]
  rfl

/-- The number of conditions is read from the first argument. -/
lemma step_number {t : Transaction} (h : Packed t keys arguments) :
    step host (.define "n" (.call "tonumber" [.item (.name "ARGV") (.number 1)]))
        (globals keys arguments) =
      pure (counted keys arguments t.conditions.length, .onward) := by
  have hitem : eval host (globals keys arguments) (.item (.name "ARGV") (.number 1)) =
      pure (.text (toString t.conditions.length)) := by
    have hrow := item_row (σ := Keyspace) h.count
    rw [eval, eval_name rfl, eval, Act.pure_bind, Act.pure_bind]
    exact hrow
  rw [step, eval_call "tonumber" (.cons hitem .nil), host_tonumber, Act.pure_bind]
  rfl

/-- The first loop answers with zero unless all conditions hold. -/
lemma step_check {t : Transaction} (h : Packed t keys arguments) (k : Keyspace) :
    step host (.count "i" (.number 1) (.name "n") check)
        (counted keys arguments t.conditions.length) k =
      (.ok (counted keys arguments t.conditions.length,
        if t.holds k then .onward else .answered (.number 0)), k) := by
  have hlow : eval host (counted keys arguments t.conditions.length) (.number 1) =
      pure (.number 1) := by
    rw [eval]
    rfl
  have hturns : ((t.conditions.length : ℤ) + 1 - 1).toNat = t.conditions.length := by omega
  have hjudge := through_check h (n := t.conditions.length) (j := 0) List.drop_zero k
  rw [step_count hlow (eval_name rfl), hturns]
  exact Act.bind_of_ok hjudge

/-- The second loop applies the writes. -/
lemma step_write {t : Transaction} (h : Packed t keys arguments) (k : Keyspace) :
    step host (.count "i" (.plus (.name "n") (.number 1)) (.length (.name "KEYS")) Script.write)
        (counted keys arguments t.conditions.length) k =
      (.ok (counted keys arguments t.conditions.length, .onward), t.apply k) := by
  have hlow : eval host (counted keys arguments t.conditions.length)
      (.plus (.name "n") (.number 1)) = pure (.number (t.conditions.length + 1)) := by
    rw [eval, eval_name rfl, eval]
    rfl
  have hhigh : eval host (counted keys arguments t.conditions.length)
      (.length (.name "KEYS")) = pure (.number keys.length) := by
    rw [eval, eval_name rfl]
    rfl
  -- the keys of the writes come after those of the conditions
  have hturns : ((keys.length : ℤ) + 1 - (t.conditions.length + 1)).toNat = t.writes.length := by
    rw [h.length]
    omega
  have hwrite := through_write h (n := t.conditions.length) (j := 0) List.drop_zero k
  rw [step_count hlow hhigh, hturns]
  exact Act.bind_of_ok hwrite

/-- The program commits the transaction that is packed into its keys and arguments. -/
lemma run_program {t : Transaction} (h : Packed t keys arguments) (k : Keyspace) :
    Lua.run host program (globals keys arguments) k =
      (.ok (.number (if t.holds k then 1 else 0)), (t.commit k).2) := by
  have hblock : block host program (globals keys arguments) k =
      (.ok (.answered (.number (if t.holds k then 1 else 0))), (t.commit k).2) := by
    rw [program, block, step_number h, Act.pure_bind]
    dsimp only
    rw [block, Act.bind_of_ok (step_check h k), Transaction.commit]
    cases t.holds k with
    | false => rfl
    | true =>
        simp only [↓reduceIte]
        rw [block, Act.bind_of_ok (step_write h k)]
        rfl
  rw [Lua.run, Act.bind_of_ok hblock]
  rfl

end Running

/-- **The script commits a transaction** when all of its conditions hold and answers with one, else
it writes nothing and answers with zero. -/
theorem evaluate_text (t : Transaction) (k : Keyspace) :
    evaluate? text (keys t) (arguments t) k =
      some (.int (if (t.commit k).1 then 1 else 0), (t.commit k).2) := by
  rw [evaluate?, read_text]
  dsimp only
  rw [run_program (packed t) k, Transaction.commit]
  cases t.holds k <;> rfl

end StoreSoak.Remote.Script
