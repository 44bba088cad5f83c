import StoreSoak.Proofs.Text.Cuts
import StoreSoak.Proofs.Text.Numeral
import StoreSoak.Remote.Endpoint

/-!
The database that an address names.

A URL of a host names a database in its path. An address that is no URL becomes one with the database
of the options after its last slash. Whatever stands before this slash, user, port and dots among it,
the path then names this database or none at all: its last segment stays where it is, and no number
has a slash in it. Only what ends a path earlier, a question mark or a number sign, keeps the
database out of it.

* `LeavesDatabase`: the address says nothing about the database.
* `namedDatabase?` is the database that any other address names.
* `database_of_leaves`, `database_of_names`: the endpoint has the database of the options or the one
  that is named.
-/

namespace StoreSoak.Remote

namespace Url

/-! ### Cleaning -/

/-- A blank or a control character. -/
def isBlank (c : Char) : Bool :=
  c.toNat ≤ 32

/-- A character that is not passed over inside a URL. -/
def isKept (c : Char) : Bool :=
  c ≠ '\t' && c ≠ '\n' && c ≠ '\r'

lemma clean_eq (s : List Char) :
    clean s = ((s.dropWhile isBlank).rdropWhile isBlank).filter isKept :=
  rfl

lemma isKept_of_not_blank {c : Char} (hc : isBlank c = false) : isKept c = true := by
  rw [isKept, Bool.and_eq_true, Bool.and_eq_true, decide_eq_true_iff, decide_eq_true_iff,
    decide_eq_true_iff]
  refine ⟨⟨?_, ?_⟩, ?_⟩ <;> rintro rfl <;> cases hc

/-- A character that is no blank keeps what stands on its two sides apart. -/
lemma clean_append {x : Char} (hx : isBlank x = false) (s t : List Char) :
    clean (s ++ x :: t) =
      (s.dropWhile isBlank).filter isKept ++ x :: (t.rdropWhile isBlank).filter isKept := by
  rw [clean_eq, Text.dropWhile_append_stop hx, Text.rdropWhile_append_stop hx, List.filter_append,
    List.filter_cons_of_pos (isKept_of_not_blank hx)]

/-! ### URLs of hosts -/

/-- How the URL of a host begins. -/
def hostPrefix : List Char :=
  ['r', 'e', 'd', 'i', 's', ':', '/', '/']

/-- A character of an authority. -/
def inAuthority (c : Char) : Bool :=
  !endsAuthority c

/-- A character of a path. -/
def inPath (c : Char) : Bool :=
  c ≠ '?' && c ≠ '#'

/-- The URL of a host with an authority and what comes after it. -/
def ofHost (a : Authority) (s : List Char) : Url where
  scheme := "redis".toList
  username := a.username
  password := a.password
  host := a.host
  port := a.port
  rooted := true
  path := segments (pathAndQuery s).1
  query := (pathAndQuery s).2

/-- The path goes up to the first question mark or number sign. -/
lemma pathAndQuery_fst (s : List Char) : (pathAndQuery s).1 = s.takeWhile inPath := by
  have hpath : inPath = fun c => decide (decide (c ≠ '?') = true ∧ decide (c ≠ '#') = true) := by
    funext c
    simp [inPath]
  rw [hpath, ← List.takeWhile_takeWhile]
  rfl

lemma clean_host {x : Char} (hx : isBlank x = false) (s t : List Char) :
    clean (hostPrefix ++ s ++ x :: t) =
      hostPrefix ++ (s.filter isKept ++ x :: (t.rdropWhile isBlank).filter isKept) := by
  rw [clean_append hx]
  rfl

/-- The parts of the URL of a host. What ends the authority is no blank. -/
lemma parseChars?_host {x : Char} (hx : endsAuthority x = true) (s t : List Char) :
    parseChars? (hostPrefix ++ s ++ x :: t) =
      (authority? true ((s.filter isKept).takeWhile inAuthority)).map fun a =>
        ofHost a (a.rest ++ (s.filter isKept).dropWhile inAuthority ++
          x :: (t.rdropWhile isBlank).filter isKept) := by
  have hblank : isBlank x = false := by
    rw [endsAuthority, Bool.or_eq_true, Bool.or_eq_true, decide_eq_true_iff, decide_eq_true_iff,
      decide_eq_true_iff] at hx
    rcases hx with (rfl | rfl) | rfl <;> rfl
  have hin : inAuthority x = false := by rw [inAuthority, hx, Bool.not_true]
  rw [parseChars?, clean_host hblank]
  generalize s.filter isKept = s'
  generalize (t.rdropWhile isBlank).filter isKept = t'
  have hscheme : scheme? (hostPrefix ++ (s' ++ x :: t')) =
      some ("redis".toList, '/' :: '/' :: (s' ++ x :: t')) := rfl
  -- the authority ends before the stop, and the stop goes with the rest
  have htake : (s' ++ x :: t').takeWhile inAuthority = s'.takeWhile inAuthority :=
    Text.takeWhile_append_stop hin s' t'
  have hdrop : (s' ++ x :: t').dropWhile inAuthority = s'.dropWhile inAuthority ++ x :: t' :=
    Text.dropWhile_append_stop hin s' t'
  have hfollowed : (!(s'.dropWhile inAuthority ++ x :: t').isEmpty) = true := by simp
  rw [hscheme]
  show (authority? (!((s' ++ x :: t').dropWhile inAuthority).isEmpty)
      ((s' ++ x :: t').takeWhile inAuthority)).bind
    (fun a => some (ofHost a (a.rest ++ (s' ++ x :: t').dropWhile inAuthority))) = _
  rw [htake, hdrop, hfollowed, Option.map_eq_bind]
  simp only [List.append_assoc, Function.comp_def]

/-! ### What follows a port -/

section Authority

variable {c : Char} {s : List Char}

lemma mem_of_mem_hostSplit {bracketed : Bool} (hc : c ∈ (hostSplit bracketed s).2) : c ∈ s := by
  induction s generalizing bracketed with
  | nil => exact hc
  | cons x s ih =>
      rw [hostSplit] at hc
      split at hc
      · exact hc
      · exact List.mem_cons_of_mem x (ih hc)

lemma mem_of_mem_cutAt {x : Char} {l r : List Char} (h : cutAt x s = some (l, r)) (hc : c ∈ l) :
    c ∈ s := by
  rw [cutAt] at h
  split at h
  · cases h
  · cases h
    exact List.takeWhile_subset _ hc

lemma mem_of_mem_userSplit (hc : c ∈ (userSplit s).2) : c ∈ s := by
  rw [userSplit] at hc
  split at hc
  · exact hc
  · rename_i hcut
    exact List.mem_reverse.mp (mem_of_mem_cutAt hcut (List.mem_reverse.mp hc))

lemma mem_of_mem_port {port : Option ℕ} {r : List Char} (h : port? s = some (port, r))
    (hc : c ∈ r) : c ∈ s := by
  cases s with
  | nil =>
      cases h
      exact hc
  | cons x s =>
      have hr : r = s.dropWhile fun c => decide (c ≠ '\\') := by
        rw [port?] at h
        split at h
        · cases h
          rfl
        · split at h
          · cases h
            rfl
          · cases h
      subst hr
      exact List.mem_cons_of_mem x ((List.dropWhile_sublist _).subset hc)

/-- What is written after a port stands in the authority. -/
lemma mem_of_mem_rest {followed : Bool} {a : Authority} (h : authority? followed s = some a)
    (hc : c ∈ a.rest) : c ∈ s := by
  simp only [authority?] at h
  split at h
  · cases h
  · split at h
    · cases h
    · split at h
      · cases h
      · obtain ⟨⟨port, rest⟩, hport, ha⟩ := Option.bind_eq_some_iff.mp h
        cases ha
        exact mem_of_mem_userSplit (mem_of_mem_hostSplit (mem_of_mem_port hport hc))

end Authority

/-! ### The last segment of a path -/

lemma plainDots_of_notMem {s : List Char} (hs : '%' ∉ s) : plainDots s = s := by
  induction s with
  | nil => rfl
  | cons c s ih =>
      rw [List.mem_cons, not_or] at hs
      rw [plainDots.eq_def]
      split
      · rename_i heq
        cases heq
        exact absurd rfl hs.1
      · rename_i heq
        cases heq
        rw [ih hs.2]
      · rename_i heq
        cases heq

/-- A last segment without dots is kept as it is. -/
lemma resolve_concat {last : List Char} (hpercent : '%' ∉ last) (hdot : '.' ∉ last)
    (done parts : List (List Char)) :
    ∃ above, resolve done (parts ++ [last]) = above ++ [last] := by
  -- a last segment without dots is put down wherever the others lead
  induction parts generalizing done with
  | nil =>
      have hplain : plainDots last ≠ ['.', '.'] ∧ plainDots last ≠ ['.'] := by
        rw [plainDots_of_notMem hpercent]
        constructor <;> rintro rfl <;> exact hdot List.mem_cons_self
      refine ⟨done.reverse, ?_⟩
      rw [List.nil_append, resolve, if_neg hplain.1, if_neg hplain.2, resolve, List.reverse_cons]
  | cons part parts ih =>
      have hmore : ¬ (parts ++ [last]).isEmpty = true := by simp
      rw [List.cons_append, resolve, if_neg hmore, if_neg hmore]
      split
      · exact ih _
      · split
        · exact ih _
        · exact ih _

/-- The last segment of a path is what stands after its last slash. -/
lemma segments_append {last : List Char} (hpercent : '%' ∉ last) (hdot : '.' ∉ last)
    (hslash : '/' ∉ last) (s : List Char) :
    ∃ above, segments (s ++ '/' :: last) = above ++ [last] := by
  have hlast : Text.splitOn '/' last = [last] := Text.splitOn_of_notMem hslash
  rw [segments.eq_def]
  split
  · rename_i heq
    simp at heq
  · rename_i rest heq
    cases s with
    | nil =>
        cases heq
        rw [hlast]
        exact resolve_concat hpercent hdot [] []
    | cons c s =>
        rw [List.cons_append] at heq
        obtain ⟨-, rfl⟩ := List.cons.inj heq
        rw [Text.splitOn_append_cons, hlast]
        exact resolve_concat hpercent hdot [] _
  · rw [Text.splitOn_append_cons, hlast]
    exact resolve_concat hpercent hdot [] _

end Url

namespace Endpoint

/-- A text whose last part is an integer after a slash, without the slashes at its ends. -/
lemma withoutSlashes_append (s : List Char) (d : ℤ) :
    ∃ w, withoutSlashes (s ++ '/' :: Text.integer d) = w ++ Text.integer d ∧
      (w = [] ∨ '/' ∈ w) := by
  have hslash : '/' ∉ Text.integer d := Text.notMem_integer (by decide) rfl d
  have hend (w : List Char) :
      (w ++ Text.integer d).rdropWhile (· = '/') = w ++ Text.integer d := by
    rw [List.rdropWhile_eq_self_iff]
    intro hne hlast
    rw [List.getLast_append_of_ne_nil _ (Text.integer_ne_nil d), decide_eq_true_iff] at hlast
    exact hslash (hlast ▸ List.getLast_mem _)
  have hstart : (Text.integer d).dropWhile (· = '/') = Text.integer d := by
    rw [List.dropWhile_eq_self_iff]
    intro hlt hhead
    exact hslash (decide_eq_true_iff.mp hhead ▸ List.getElem_mem hlt)
  show ∃ w, ((s ++ '/' :: Text.integer d).dropWhile (· = '/')).rdropWhile (· = '/') = _ ∧ _
  -- either the slashes reach up to the number, or there is a segment above it
  rw [List.dropWhile_append]
  split
  · refine ⟨[], ?_, Or.inl rfl⟩
    rw [List.dropWhile_cons_of_pos (by simp), hstart]
    exact hend []
  · refine ⟨s.dropWhile (· = '/') ++ ['/'], ?_, Or.inr (by simp)⟩
    rw [List.append_cons]
    exact hend _

/-- A path names the database after its last slash or none. -/
lemma databaseOfPath_append {i d : ℤ} {s : List Char}
    (h : databaseOfPath (s ++ '/' :: Text.integer d) = .ok i) : i = d := by
  obtain ⟨w, hw, hslash⟩ := withoutSlashes_append s d
  have hne : ¬ (w ++ Text.integer d).isEmpty = true := by simp [Text.integer_ne_nil]
  rw [databaseOfPath, hw, if_neg hne] at h
  split at h
  · rename_i j hj
    cases h
    obtain ⟨-, hnone⟩ := Text.integer?_spec hj
    rcases hslash with rfl | hslash
    · rw [List.nil_append, Text.integer?_integer] at hj
      split at hj
      · exact (Option.some.inj hj).symm
      · cases hj
    · exact absurd (List.mem_append_left _ hslash) hnone
  · cases h

end Endpoint

/-! ### The database of a URL -/

namespace Url

/-- The database that a URL names: that of a host in its path, that of a socket in its query. -/
def database? (u : Url) : Option ℤ :=
  let scheme := String.ofList u.scheme
  if scheme = "redis" || scheme = "rediss" then (Endpoint.databaseOfPath u.pathChars).toOption
  else
    match u.query? "db" with
    | none => some 0
    | some v => Text.integer? v.toList

/-- The database that a URL names has a number of 64 bits. -/
lemma database?_range {u : Url} {i : ℤ} (h : u.database? = some i) :
    -9223372036854775808 ≤ i ∧ i < 9223372036854775808 := by
  rw [database?] at h
  split at h
  · rw [Endpoint.databaseOfPath] at h
    split at h
    · cases h
      decide
    · split at h
      · rename_i j hj
        cases h
        exact (Text.integer?_spec hj).1
      · cases h
  · split at h
    · cases h
      decide
    · exact (Text.integer?_spec h).1

lemma database?_ofHost (a : Authority) (s : List Char) :
    (ofHost a s).database? = (Endpoint.databaseOfPath
      ((segments (s.takeWhile inPath)).flatMap fun part => '/' :: part)).toOption := by
  rw [← pathAndQuery_fst]
  rfl

/-- What stands behind the end of a path makes no difference to the database. -/
lemma database_of_cut {x : Char} (hx : endsAuthority x = true) (hpath : inPath x = false)
    (s t t' : List Char) :
    (parseChars? (hostPrefix ++ s ++ x :: t)).bind database? =
      (parseChars? (hostPrefix ++ s ++ x :: t')).bind database? := by
  have hdatabase (t : List Char) : (parseChars? (hostPrefix ++ s ++ x :: t)).bind database? =
      (authority? true ((s.filter isKept).takeWhile inAuthority)).bind fun a =>
        (Endpoint.databaseOfPath ((segments ((a.rest ++
          (s.filter isKept).dropWhile inAuthority).takeWhile inPath)).flatMap
            fun part => '/' :: part)).toOption := by
    rw [parseChars?_host hx, Option.bind_map]
    congr 1
    funext a
    rw [Function.comp_apply, database?_ofHost, Text.takeWhile_append_stop hpath]
  rw [hdatabase, hdatabase]

lemma inPath_of_mem_integer {d : ℤ} {c : Char} (hc : c ∈ Text.integer d) : inPath c = true := by
  rw [inPath, Bool.and_eq_true, decide_eq_true_iff, decide_eq_true_iff]
  constructor <;> rintro rfl <;> exact Text.notMem_integer (by decide) rfl d hc

lemma inPath_of_inAuthority {c : Char} (hc : inAuthority c = true) : inPath c = true := by
  rw [inPath, Bool.and_eq_true, decide_eq_true_iff, decide_eq_true_iff]
  constructor <;> rintro rfl <;> cases hc

/-- A number is clean. -/
lemma clean_integer (d : ℤ) :
    ((Text.integer d).rdropWhile isBlank).filter isKept = Text.integer d := by
  have hblank : ∀ c ∈ Text.integer d, isBlank c = false := by
    intro c hc
    rcases Text.mem_integer hc with rfl | hdigit
    · rfl
    · have hlow : 48 ≤ c.toNat := (Char.isDigit_iff_toNat.mp hdigit).1
      rw [isBlank, decide_eq_false_iff_not]
      omega
  have hlast : (Text.integer d).rdropWhile isBlank = Text.integer d := by
    rw [List.rdropWhile_eq_self_iff]
    intro hne
    rw [hblank _ (List.getLast_mem hne)]
    exact Bool.false_ne_true
  rw [hlast, List.filter_eq_self]
  exact fun c hc => isKept_of_not_blank (hblank c hc)

/-- A path that ends in a slash and a number, and not before, names this number or nothing. -/
lemma database_of_last {s : List Char} (hs : ∀ c ∈ s, inPath c = true) {d i : ℤ}
    (h : (parseChars? (hostPrefix ++ s ++ '/' :: Text.integer d)).bind database? = some i) :
    i = d := by
  rw [parseChars?_host rfl, clean_integer, Option.bind_map] at h
  obtain ⟨a, ha, hi⟩ := Option.bind_eq_some_iff.mp h
  rw [Function.comp_apply, database?_ofHost] at hi
  have hall : ∀ c ∈ a.rest ++ (s.filter isKept).dropWhile inAuthority ++ '/' :: Text.integer d,
      inPath c = true := by
    intro c hc
    rcases List.mem_append.mp hc with hc | hc
    · rcases List.mem_append.mp hc with hc | hc
      · exact inPath_of_inAuthority (List.mem_takeWhile_imp (mem_of_mem_rest ha hc))
      · exact hs c (List.mem_filter.mp ((List.dropWhile_sublist _).subset hc)).1
    · rcases List.mem_cons.mp hc with rfl | hc
      · rfl
      · exact inPath_of_mem_integer hc
  obtain ⟨above, habove⟩ := segments_append (Text.notMem_integer (by decide) rfl d)
    (Text.notMem_integer (by decide) rfl d) (Text.notMem_integer (by decide) rfl d)
    (a.rest ++ (s.filter isKept).dropWhile inAuthority)
  rw [List.takeWhile_eq_self_iff.mpr hall, habove, List.flatMap_append,
    List.flatMap_singleton] at hi
  cases hread : Endpoint.databaseOfPath
      ((above.flatMap fun part => '/' :: part) ++ '/' :: Text.integer d) with
  | error f =>
      rw [hread] at hi
      cases hi
  | ok j =>
      rw [hread] at hi
      cases hi
      exact Endpoint.databaseOfPath_append hread

end Url

/-! ### The database of an endpoint -/

namespace Endpoint

lemma ok_of_bind {ε α β : Type} {x : Except ε α} {f : α → Except ε β} {b : β}
    (h : x >>= f = .ok b) : ∃ a, x = .ok a ∧ f a = .ok b := by
  cases x with
  | error => cases h
  | ok a => exact ⟨a, rfl, h⟩

/-- The endpoint of a host has the database of the path. -/
lemma database_of_hostUrl {u : Url} {e : Endpoint} (h : ofHostUrl u = .ok e) :
    databaseOfPath u.pathChars = .ok e.database := by
  rw [ofHostUrl] at h
  split at h
  · obtain ⟨host, -, h⟩ := ok_of_bind h
    dsimp only at h
    split at h
    · cases h
    · obtain ⟨database, hdatabase, h⟩ := ok_of_bind h
      rw [hdatabase]
      -- user name and password may be missing
      split at h <;> obtain ⟨username, -, h⟩ := ok_of_bind h <;> split at h <;>
        obtain ⟨password, -, h⟩ := ok_of_bind h <;> obtain ⟨modern, -, h⟩ := ok_of_bind h <;>
        cases h <;> rfl
  · cases h

/-- The endpoint of a socket has the database of the query, or zero. -/
lemma database_of_socketUrl {u : Url} {e : Endpoint} (h : ofSocketUrl u = .ok e) :
    (u.query? "db" = none ∧ e.database = 0) ∨
      ∃ v, u.query? "db" = some v ∧ Text.integer? v.toList = some e.database := by
  rw [ofSocketUrl] at h
  split at h
  · cases h
  · split at h
    · rename_i hquery
      obtain ⟨database, hdatabase, h⟩ := ok_of_bind h
      obtain ⟨modern, -, h⟩ := ok_of_bind h
      cases h
      cases hdatabase
      exact Or.inl ⟨hquery, rfl⟩
    · rename_i v hquery
      split at h
      · rename_i i hi
        obtain ⟨database, hdatabase, h⟩ := ok_of_bind h
        obtain ⟨modern, -, h⟩ := ok_of_bind h
        cases h
        cases hdatabase
        exact Or.inr ⟨v, hquery, hi⟩
      · cases h

/-- Where a URL is read as an endpoint, the database of the two is the same. -/
lemma database_of_url {s : String} {e : Endpoint} (h : ofUrl? s = .ok e) :
    (Url.parse? s).bind Url.database? = some e.database := by
  rw [ofUrl?] at h
  split at h
  · cases h
  · rename_i u hu
    rw [hu, Option.bind_some, Url.database?]
    dsimp only at h ⊢
    split at h
    · rename_i hscheme
      rw [if_pos hscheme, database_of_hostUrl h]
      rfl
    · rename_i hscheme
      rw [if_neg hscheme]
      split at h
      · rcases database_of_socketUrl h with ⟨hquery, hzero⟩ | ⟨v, hquery, hv⟩
        · rw [hquery, hzero]
        · rw [hquery]
          exact hv
      · cases h

end Endpoint

/-! ### The database of an address -/

/-- An address that says nothing about the database: a host and what belongs to it, but no URL, and
nothing in it that would end a path. -/
structure LeavesDatabase (address : String) : Prop where
  bare : occursIn [':', '/', '/'] address.toList = false
  unended : ∀ c ∈ address.toList, c ≠ '?' ∧ c ≠ '#'

/-- The database that an address names by itself, as a URL or the beginning of one. -/
def namedDatabase? (address : String) : Option ℤ :=
  (Url.parse? (if occursIn [':', '/', '/'] address.toList then address
    else "redis://" ++ address)).bind Url.database?

variable {address : String} {d : ℤ} {e : Endpoint}

lemma toList_connectionUrl (h : occursIn [':', '/', '/'] address.toList = false) :
    (connectionUrl address d).toList =
      Url.hostPrefix ++ address.toList ++ '/' :: Text.integer d := by
  have hdigits : (String.ofList (Text.integer d)).toList = Text.integer d := String.toList_ofList
  rw [connectionUrl, h, if_neg Bool.false_ne_true, String.toList_append, String.toList_append,
    String.toList_append, hdigits, List.append_assoc]
  rfl

/-- An address that says nothing about the database is given that of the options. -/
lemma database_of_leaves (h : LeavesDatabase address)
    (he : Endpoint.ofUrl? (connectionUrl address d) = .ok e) : e.database = d := by
  have hurl := Endpoint.database_of_url he
  rw [Url.parse?, toList_connectionUrl h.bare] at hurl
  refine Url.database_of_last (fun c hc => ?_) hurl
  rw [Url.inPath, Bool.and_eq_true, decide_eq_true_iff, decide_eq_true_iff]
  exact h.unended c hc

/-- An address that says something about the database is given what it says. -/
lemma database_of_names (h : ¬ LeavesDatabase address)
    (he : Endpoint.ofUrl? (connectionUrl address d) = .ok e) :
    namedDatabase? address = some e.database := by
  rw [← Endpoint.database_of_url he, namedDatabase?]
  cases hbare : occursIn [':', '/', '/'] address.toList with
  | true => rw [if_pos rfl, connectionUrl, if_pos hbare]
  | false =>
      have hended : ∃ x ∈ address.toList, x = '?' ∨ x = '#' := by
        by_contra hno
        refine h ⟨hbare, fun c hc => ⟨fun hx => ?_, fun hx => ?_⟩⟩
        · exact hno ⟨c, hc, Or.inl hx⟩
        · exact hno ⟨c, hc, Or.inr hx⟩
      obtain ⟨x, hx, hkind⟩ := hended
      have hends : Url.endsAuthority x = true ∧ Url.inPath x = false := by
        rcases hkind with rfl | rfl <;> exact ⟨rfl, rfl⟩
      obtain ⟨s, t, hst⟩ := List.append_of_mem hx
      have hnamed : ("redis://" ++ address).toList = Url.hostPrefix ++ s ++ x :: t := by
        rw [String.toList_append, hst, List.append_assoc]
        rfl
      have hurl : (connectionUrl address d).toList =
          Url.hostPrefix ++ s ++ x :: (t ++ '/' :: Text.integer d) := by
        rw [toList_connectionUrl hbare, hst]
        simp
      rw [if_neg Bool.false_ne_true, Url.parse?, Url.parse?, hnamed, hurl]
      exact Url.database_of_cut hends.1 hends.2 s _ _

end StoreSoak.Remote
