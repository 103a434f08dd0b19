import AuditedPetitions.Proofs.Cache.Invalidation
import Mathlib

/-! Expiring maps told by their history. What readers see under a key depends on the latest call
that wrote it: a set shows its text until the lifetime is over, and a deletion shows nothing. Entries
that have expired may still be in the map or have been removed by a reader of their key, and no
reader can tell which, as long as the clock does not go back. -/

namespace AuditedPetitions.Cache

/-- What a call that succeeds writes under a key: an entry, or none if it deletes the key. -/
def Request.written (c : Condition) (key : String) : Request → Option (Option Entry)
  | .set k text ttl =>
    if c.fault = none ∧ c.now + ttl < clockEnd ∧ k = key then some (some ⟨k, text, c.now + ttl⟩)
    else none
  | .delete keys => if c.fault = none ∧ key ∈ keys then some none else none
  | .get _ | .scan _ => none

def Request.writes : Request → Bool
  | .set .. | .delete _ => true
  | .get _ | .scan _ => false

/-- What the latest call that wrote a key has left there. -/
def latest? (calls : List (Condition × Request)) (key : String) : Option Entry :=
  (calls.reverse.findSome? fun r => r.2.written r.1 key).join

theorem latest?_concat (calls : List (Condition × Request)) (r : Condition × Request)
    (key : String) :
    latest? (calls ++ [r]) key = (r.2.written r.1 key).getD (latest? calls key) := by
  rw [latest?, List.reverse_append, List.reverse_singleton, List.singleton_append,
    List.findSome?_cons, latest?]
  cases r.2.written r.1 key <;> rfl

theorem latest?_filter (calls : List (Condition × Request)) (key : String) :
    latest? (calls.filter (·.2.writes)) key = latest? calls key := by
  induction calls using List.reverseRecOn with
  | nil => rfl
  | append_singleton calls r ih =>
    obtain ⟨c, q⟩ := r
    rw [List.filter_append, latest?_concat]
    cases q with
    | set k text ttl | delete keys =>
      rw [List.filter_cons_of_pos rfl, List.filter_nil, latest?_concat, ih]
    | get k | scan start =>
      rw [List.filter_cons_of_neg Bool.false_ne_true, List.filter_nil, List.append_nil, ih]
      rfl

/-- A set of the key stored the text, the lifetime goes beyond the moment, and no later call has
written the key. Calls that failed have written nothing. -/
def Stands (calls : List (Condition × Request)) (t : Nat) (key text : String) : Prop :=
  ∃ earlier c ttl later, calls = earlier ++ (c, .set key text ttl) :: later ∧
    c.fault = none ∧ c.now + ttl < clockEnd ∧ t < c.now + ttl ∧
    ∀ r ∈ later, r.2.written r.1 key = none

theorem latest?_eq_some {calls : List (Condition × Request)} {key : String} {e : Entry} :
    latest? calls key = some e ↔ ∃ earlier r later, calls = earlier ++ r :: later ∧
      r.2.written r.1 key = some (some e) ∧ ∀ s ∈ later, s.2.written s.1 key = none := by
  rw [latest?, Option.join_eq_some_iff, List.findSome?_eq_some_iff]
  constructor
  · rintro ⟨later, r, earlier, hcalls, hr, hlater⟩
    refine ⟨earlier.reverse, r, later.reverse, ?_, hr, fun s hs => hlater s (List.mem_reverse.1 hs)⟩
    rw [← List.reverse_reverse calls, hcalls]
    simp
  · rintro ⟨earlier, r, later, rfl, hr, hlater⟩
    refine ⟨later.reverse, r, earlier.reverse, by simp, hr, fun s hs => ?_⟩
    exact hlater s (List.mem_reverse.1 hs)

theorem stands_iff {calls : List (Condition × Request)} {t : Nat} {key text : String} :
    Stands calls t key text ↔ ∃ e, latest? calls key = some e ∧ t < e.expires ∧ e.text = text := by
  constructor
  · rintro ⟨earlier, c, ttl, later, hcalls, hfault, hend, hlive, hlater⟩
    refine ⟨⟨key, text, c.now + ttl⟩, latest?_eq_some.2 ⟨_, _, _, hcalls, ?_, hlater⟩, hlive, rfl⟩
    simp [Request.written, hfault, hend]
  · rintro ⟨e, he, hlive, rfl⟩
    obtain ⟨earlier, ⟨c, q⟩, later, hcalls, hr, hlater⟩ := latest?_eq_some.1 he
    cases q with
    | get k | scan start => cases hr
    | delete keys =>
      simp only [Request.written] at hr
      split at hr <;> cases hr
    | set k text ttl =>
      simp only [Request.written] at hr
      split at hr
      · rename_i h
        cases hr
        obtain ⟨hfault, hend, rfl⟩ := h
        exact ⟨earlier, c, ttl, later, hcalls, hfault, hend, hlive, hlater⟩
      · cases hr

theorem latest?_of_append {calls later : List (Condition × Request)} {key : String} {e : Entry}
    (h : latest? (calls ++ later) key = some e)
    (hunset : ∀ r ∈ later, ∀ e, r.2.written r.1 key ≠ some (some e)) :
    latest? calls key = some e := by
  induction later using List.reverseRecOn with
  | nil => rwa [List.append_nil] at h
  | append_singleton later r ih =>
    rw [← List.append_assoc, latest?_concat] at h
    have hearlier : ∀ r ∈ later, ∀ e, r.2.written r.1 key ≠ some (some e) :=
      fun s hs => hunset s (List.mem_append_left _ hs)
    have hlast := hunset r (List.mem_append_right _ List.mem_cons_self)
    cases hr : r.2.written r.1 key with
    | none =>
      rw [hr] at h
      exact ih h hearlier
    | some entry =>
      rw [hr] at h
      cases h
      exact absurd hr (hlast e)

theorem Stands.of_append {calls later : List (Condition × Request)} {t t' : Nat} {key text : String}
    (h : Stands (calls ++ later) t' key text) (hle : t ≤ t')
    (hunset : ∀ r ∈ later, ∀ e, r.2.written r.1 key ≠ some (some e)) :
    Stands calls t key text := by
  obtain ⟨e, he, hlive, htext⟩ := stands_iff.1 h
  exact stands_iff.2 ⟨e, latest?_of_append he hunset, hle.trans_lt hlive, htext⟩

theorem filter_isLive (found : Option Entry) {now later : Nat} (hle : now ≤ later) :
    (found.filter (·.isLive now)).filter (·.isLive later) = found.filter (·.isLive later) := by
  refine Option.ext fun e => ?_
  simp only [Option.filter_eq_some_iff, Entry.isLive, decide_eq_true_eq, and_assoc]
  exact and_congr_right fun _ => and_iff_right_of_imp hle.trans_lt

namespace ExpiringMap

/-- Entry under a key that has not expired. -/
def live? (m : ExpiringMap) (now : Nat) (key : String) : Option Entry :=
  (m.get? key).filter (·.isLive now)

theorem live?_eq_some {m : ExpiringMap} {now : Nat} {key : String} {e : Entry} :
    m.live? now key = some e ↔ m.get? key = some e ∧ now < e.expires := by
  rw [live?, Option.filter_eq_some_iff, Entry.isLive, decide_eq_true_eq]

theorem live_iff {m : ExpiringMap} {now : Nat} {key : String} :
    m.Live now key ↔ ∃ e, m.live? now key = some e := by
  simp only [Live, live?_eq_some]

/-- A reader sees the entries that live on as the calls wrote them; whether others are still there
does not show. -/
theorem live?_after {c : Condition} {t : Nat} (hle : c.now ≤ t) (q : Request) (m : ExpiringMap)
    (key : String) : (q.after c.backend m).live? t key =
      ((q.written c key).getD (m.get? key)).filter (·.isLive t) := by
  obtain ⟨now, fault⟩ := c
  cases fault with
  | some error =>
    have hidle : q.after (Condition.backend ⟨now, some error⟩) m = m := by cases q <;> rfl
    rw [hidle, live?]
    cases q <;> simp [Request.written]
  | none =>
    cases q with
    | get k =>
      have hget : ((Request.get k).after (Condition.backend ⟨now, none⟩) m).get? key = _ :=
        get?_get m now k key
      rw [live?, hget]
      split
      · -- What the reader removes had expired already.
        exact filter_isLive _ hle
      · rfl
    | set k text ttl =>
      simp only [live?, Request.after, Condition.backend, backend, Request.written, true_and]
      by_cases hend : now + ttl < clockEnd
      · rw [if_pos hend, get?_set]
        by_cases hk : k = key <;> simp [hend, hk]
      · simp [hend]
    | scan start => rfl
    | delete keys =>
      have hdelete : ((Request.delete keys).after (Condition.backend ⟨now, none⟩) m).get? key = _ :=
        get?_delete m keys key
      rw [live?, hdelete]
      by_cases hk : key ∈ keys <;> simp [Request.written, hk]

theorem runRequests_append (m : ExpiringMap) (xs ys : List (Condition × Request)) :
    m.runRequests (xs ++ ys) = (m.runRequests xs).runRequests ys := List.foldl_append

theorem live?_runRequests {calls : List (Condition × Request)} {t : Nat}
    (hclock : ∀ r ∈ calls, r.1.now ≤ t) (key : String) :
    (runRequests .empty calls).live? t key = (latest? calls key).filter (·.isLive t) := by
  induction calls using List.reverseRecOn with
  | nil => rfl
  | append_singleton calls r ih =>
    have hearlier := ih fun s hs => hclock s (List.mem_append_left _ hs)
    have hle : r.1.now ≤ t := hclock r (List.mem_append_right _ List.mem_cons_self)
    have hlast : (runRequests .empty (calls ++ [r])) =
        r.2.after r.1.backend (runRequests .empty calls) := runRequests_append _ calls [r]
    rw [hlast, live?_after hle, latest?_concat]
    cases r.2.written r.1 key with
    | none => exact hearlier
    | some entry => rfl

section readers
variable {m m' : ExpiringMap} {t : Nat}

theorem get_eq_some_iff {key text : String} :
    (m.get t key).1 = some text ↔ ∃ e, m.live? t key = some e ∧ e.text = text := by
  rw [get_eq, Option.map_eq_some_iff]
  rfl

theorem mem_liveKeys_iff {key : String} :
    key ∈ m.liveKeys t ↔ ∃ text, (m.get t key).1 = some text := by
  simp only [mem_liveKeys, live_iff, get_eq_some_iff]
  exact ⟨fun ⟨e, he⟩ => ⟨e.text, e, he, rfl⟩, fun ⟨_, e, he, _⟩ => ⟨e, he⟩⟩

theorem sorted_liveKeys (m : ExpiringMap) (t : Nat) : (m.liveKeys t).SortedLT :=
  List.sortedLE_mergeSort.sortedLT_of_nodup (m.nodup_liveKeys t)

theorem sorted_scan (m : ExpiringMap) (t : Nat) (start : String) : (m.scan t start).SortedLT :=
  ((m.sorted_liveKeys t).pairwise.filter _).sortedLT

theorem liveKeys_congr (h : ∀ key, m.live? t key = m'.live? t key) :
    m.liveKeys t = m'.liveKeys t := by
  refine (m.sorted_liveKeys t).eq_of_mem_iff (m'.sorted_liveKeys t) fun key => ?_
  rw [mem_liveKeys, mem_liveKeys, live_iff, live_iff, h]

theorem scan_congr (h : ∀ key, m.live? t key = m'.live? t key) (start : String) :
    m.scan t start = m'.scan t start := by
  rw [scan, scan, liveKeys_congr h]

theorem get_congr {key : String} (h : m.live? t key = m'.live? t key) :
    (m.get t key).1 = (m'.get t key).1 := by
  refine Option.ext fun text => ?_
  rw [get_eq_some_iff, get_eq_some_iff, h]

end readers

end ExpiringMap

/-- Backend over an expiring map that can be reached. -/
def available (now : Nat) : Backend ExpiringMap := Condition.backend ⟨now, none⟩

/-- At a moment readers are told the same of two maps. -/
structure Indistinct (t : Nat) (m m' : ExpiringMap) : Prop where
  get : ∀ key, ((available t).get key m).1 = ((available t).get key m').1
  keys : m.liveKeys t = m'.liveKeys t
  scan : ∀ start, ((available t).scan start m).1 = ((available t).scan start m').1

/-- What a map is to its clients at a moment after calls. A list of the live keys is read off the map
without touching it, so taking one is not among the calls. -/
structure ShowsLatest (calls : List (Condition × Request)) (t : Nat) (m : ExpiringMap) : Prop where
  get : ∀ key, ∃ found, ((available t).get key m).1 = .ok found ∧
    ∀ text, found = some text ↔ Stands calls t key text
  keys : ∀ key, key ∈ m.liveKeys t ↔ ∃ text, ((available t).get key m).1 = .ok (some text)
  keys_sorted : (m.liveKeys t).SortedLT
  scan : ∀ start, ∃ found, ((available t).scan start m).1 = .ok found ∧ found.SortedLT ∧
    ∀ key, key ∈ found ↔ key ∈ m.liveKeys t ∧ start.toList <+: key.toList
  /-- A set fails only if the clock cannot hold the end of the lifetime. -/
  set : ∀ key text ttl, ((available t).set key text ttl m).1 = .ok () ↔ t + ttl < clockEnd
  delete : ∀ keys, ∃ n, ((available t).delete keys m).1 = .ok n
  /-- Whether there were reads, and so what they removed, does not show. -/
  reads : ∀ others, (∀ r ∈ others, r.1.now ≤ t) →
    others.filter (·.2.writes) = calls.filter (·.2.writes) →
    Indistinct t m (ExpiringMap.runRequests .empty others)
  /-- What has expired is not seen again. -/
  gone : ∀ key, ((available t).get key m).1 = .ok none → ∀ later t', t ≤ t' →
    (∀ r ∈ later, r.1.now ≤ t') → (∀ r ∈ later, ∀ e, r.2.written r.1 key ≠ some (some e)) →
    ((available t').get key (m.runRequests later)).1 = .ok none

namespace ExpiringMap

section history
variable {calls : List (Condition × Request)} {t : Nat} (hclock : ∀ r ∈ calls, r.1.now ≤ t)
include hclock

theorem get_runRequests {key text : String} :
    ((runRequests .empty calls).get t key).1 = some text ↔ Stands calls t key text := by
  rw [get_eq_some_iff, live?_runRequests hclock, stands_iff]
  simp only [Option.filter_eq_some_iff, Entry.isLive, decide_eq_true_eq, and_assoc]

theorem indistinct_runRequests {others : List (Condition × Request)}
    (hothers : ∀ r ∈ others, r.1.now ≤ t)
    (hwrites : others.filter (·.2.writes) = calls.filter (·.2.writes)) :
    Indistinct t (runRequests .empty calls) (runRequests .empty others) := by
  have hsame (key : String) :
      (runRequests .empty calls).live? t key = (runRequests .empty others).live? t key := by
    rw [live?_runRequests hclock, live?_runRequests hothers, ← latest?_filter calls, ← hwrites,
      latest?_filter]
  exact {
    get := fun key => congrArg Except.ok (get_congr (hsame key))
    keys := liveKeys_congr hsame
    scan := fun start => congrArg Except.ok (scan_congr hsame start) }

theorem get_runRequests_append {key : String}
    (hnone : ((runRequests .empty calls).get t key).1 = none)
    {later : List (Condition × Request)} {t' : Nat} (hle : t ≤ t')
    (hlater : ∀ r ∈ later, r.1.now ≤ t')
    (hunset : ∀ r ∈ later, ∀ e, r.2.written r.1 key ≠ some (some e)) :
    (((runRequests .empty calls).runRequests later).get t' key).1 = none := by
  have hall : ∀ r ∈ calls ++ later, r.1.now ≤ t' := by
    intro r hr
    rcases List.mem_append.1 hr with hr | hr
    · exact (hclock r hr).trans hle
    · exact hlater r hr
  rw [← runRequests_append]
  refine Option.eq_none_iff_forall_ne_some.2 fun text htext => ?_
  have hseen : Stands calls t key text := ((get_runRequests hall).1 htext).of_append hle hunset
  rw [← get_runRequests hclock, hnone] at hseen
  cases hseen

end history

theorem available_get (now : Nat) (key : String) (m : ExpiringMap) :
    ((available now).get key m).1 = .ok (m.get now key).1 := rfl

/-- Whatever its clients have called, under outages or not, a map shows under each key what was set
last, until that is deleted or expires, and nothing else, provided that the clock does not go
back. -/
theorem runRequests_showsLatest {calls : List (Condition × Request)} {t : Nat}
    (hclock : ∀ r ∈ calls, r.1.now ≤ t) : ShowsLatest calls t (runRequests .empty calls) where
  get key := ⟨_, available_get t key _, fun _ => get_runRequests hclock⟩
  keys key := by simp only [mem_liveKeys_iff, available_get, Except.ok.injEq]
  keys_sorted := sorted_liveKeys _ t
  scan start := by
    refine ⟨_, rfl, sorted_scan _ t start, fun key => ?_⟩
    rw [mem_scan, mem_liveKeys]
  set key text ttl := by
    by_cases hend : t + ttl < clockEnd <;> simp [available, Condition.backend, backend, hend]
  delete keys := ⟨_, rfl⟩
  reads others := indistinct_runRequests hclock
  gone key hnone later t' hle hlater hunset :=
    congrArg Except.ok (get_runRequests_append hclock (Except.ok.inj hnone) hle hlater hunset)

/-- A lifetime that is shortened, one of zero, and a deletion that fails. -/
def overwrites : List (Condition × Request) :=
  [(⟨0, none⟩, .set "a" "one" 10), (⟨1, none⟩, .set "b" "two" 0), (⟨2, none⟩, .get "b"),
    (⟨3, none⟩, .set "a" "three" 4), (⟨5, none⟩, .set "c" "four" 9),
    (⟨6, some (.unavailable "off")⟩, .delete ["c"])]

theorem runRequests_showsLatest_overwrites :
    (∀ r ∈ overwrites, r.1.now ≤ 7) ∧
      ShowsLatest overwrites 7 (runRequests .empty overwrites) ∧
      ((available 7).get "a" (runRequests .empty overwrites)).1 = .ok none ∧
      ((available 7).get "c" (runRequests .empty overwrites)).1 = .ok (some "four") ∧
      liveKeys (runRequests .empty overwrites) 7 = ["c"] := by
  have hclock : ∀ r ∈ overwrites, r.1.now ≤ 7 := by decide
  have hkeys :
      ((runRequests .empty overwrites).rows.filter (·.isLive 7)).map Entry.key = ["c"] := by decide
  refine ⟨hclock, runRequests_showsLatest hclock, rfl, rfl, ?_⟩
  rw [liveKeys, hkeys, List.mergeSort_singleton]

end ExpiringMap

end AuditedPetitions.Cache
