import GigBoard.Proofs.Grouping
import Mathlib.Data.List.Perm.Basic

/-!
# Conversations in one pass

The conversations of a history are told by its keys: there is one for each key that occurs, in the
order in which the keys occur first.  So the counts do not depend on the order of the history, and a
longer history only adds to the counts and begins new conversations behind the others.

`Register` finds the conversations in one pass.  It remembers in a table where the conversation of
each key stands, and counts with signed numbers of 64 bits.  The pass could fail in two ways, at a
place where nothing stands and at a number that is too great; it never does, and it finds the same
conversations.
-/

set_option autoImplicit false

namespace GigBoard.Messaging

open Conversation (group unreadPart)

variable {caller : Uuid} {m : Message} {history : List Message}

/-! ## Values in the order in which they occur first -/

section EraseDups

variable {α : Type} [DecidableEq α]

theorem eraseDups_append_one (l : List α) (a : α) :
    (l ++ [a]).eraseDups = if a ∈ l then l.eraseDups else l.eraseDups ++ [a] := by
  rw [List.eraseDups_append]
  by_cases known : a ∈ l
  · simp [List.removeAll, known]
  · simp [List.removeAll, known, List.eraseDups_cons]

theorem eraseDups_filter (p : α → Bool) (l : List α) :
    (l.filter p).eraseDups = l.eraseDups.filter p := by
  induction l using List.reverseRecOn with
  | nil => rfl
  | append_singleton l a ih =>
      rw [List.filter_append, eraseDups_append_one]
      by_cases kept : p a = true
      · have sameTest : a ∈ l.filter p ↔ a ∈ l := by simp [kept]
        have alone : [a].filter p = [a] := by simp [kept]
        rw [alone, eraseDups_append_one, ih]
        by_cases known : a ∈ l
        · rw [if_pos (sameTest.mpr known), if_pos known]
        · rw [if_neg (mt sameTest.mp known), if_neg known, List.filter_append, alone]
      · have dropped : [a].filter p = [] := by simp [kept]
        rw [dropped, List.append_nil, ih]
        split
        · rfl
        · rw [List.filter_append, dropped, List.append_nil]

end EraseDups

theorem set_same {α : Type} {l : List α} {a : α} {i : Nat} (at_i : l[i]? = some a) :
    l.set i a = l := by
  obtain ⟨inside, rfl⟩ := List.getElem?_eq_some_iff.mp at_i
  exact List.set_getElem_self inside

/-! ## Conversations told by their keys -/

/-- A conversation has the first message of its key and the number of its unread messages. -/
structure Conversation.SumsUp (caller : Uuid) (history : List Message) (c : Conversation) :
    Prop where
  last : history.find? (fun m => c.key = .ofMessage caller m) = some c.last
  unread : c.unread = history.countP fun m => c.key = .ofMessage caller m && m.isUnreadBy caller

theorem sumsUp_of_mem_group {c : Conversation} (hc : c ∈ group caller history) :
    c.SumsUp caller history :=
  ⟨(group_groups caller history).last c hc, (group_groups caller history).unread c hc⟩

/-- The keys of the conversations are those that occur, in the order in which they occur first. -/
theorem keys_group (caller : Uuid) (history : List Message) :
    (group caller history).map Conversation.key =
      (history.map (.ofMessage caller)).eraseDups := by
  induction history using List.reverseRecOn with
  | nil => rfl
  | append_singleton history m ih =>
      rw [group_append_one, List.map_append, List.map_singleton, eraseDups_append_one, ← ih]
      have groups := group_groups caller history
      have occurs : ConversationKey.ofMessage caller m ∈ history.map (.ofMessage caller) ↔
          ∃ c ∈ group caller history, c.key = .ofMessage caller m := by
        rw [← List.mem_eraseDups, ← ih, List.mem_map]
      by_cases known : ∃ c ∈ group caller history, c.key = .ofMessage caller m
      · rw [if_pos (occurs.mpr known), Conversation.add_of_known groups.keys known]
        exact Rows.column_map fun c _ => c.counting_key
      · have new : ∀ c ∈ group caller history, c.key ≠ .ofMessage caller m :=
          fun c hc own => known ⟨c, hc, own⟩
        rw [if_neg (mt occurs.mp known), Conversation.add_of_new new, List.map_append,
          List.map_singleton]

theorem Conversation.SumsUp.eq {c d : Conversation} (left : c.SumsUp caller history)
    (right : d.SumsUp caller history) (same : c.key = d.key) : c = d := by
  obtain ⟨key, last, unread⟩ := c
  obtain ⟨key', last', unread'⟩ := d
  dsimp only at same
  subst same
  have sameLast : last = last' := Option.some.inj (left.last.symm.trans right.last)
  have sameUnread : unread = unread' := left.unread.trans right.unread.symm
  rw [sameLast, sameUnread]

/-- Conversations that sum up the same history are told apart by their keys. -/
theorem eq_of_sumsUp {cs ds : List Conversation} (left : ∀ c ∈ cs, c.SumsUp caller history)
    (right : ∀ d ∈ ds, d.SumsUp caller history)
    (keys : cs.map Conversation.key = ds.map Conversation.key) : cs = ds := by
  induction cs generalizing ds with
  | nil => exact (List.map_eq_nil_iff.mp keys.symm).symm
  | cons c cs ih =>
      obtain ⟨d, ds, rfl, sameKey, sameKeys⟩ := List.map_eq_cons_iff.mp keys.symm
      obtain ⟨isC, areCs⟩ := List.forall_mem_cons.mp left
      obtain ⟨isD, areDs⟩ := List.forall_mem_cons.mp right
      rw [isC.eq isD sameKey.symm, ih areCs areDs sameKeys.symm]

/-! ## Histories in another order, and longer ones -/

theorem mem_tallies_iff {key : ConversationKey} {n : Nat} :
    (key, n) ∈ (group caller history).map (fun c => (c.key, c.unread)) ↔
      key ∈ history.map (.ofMessage caller) ∧
        n = history.countP fun m => key = .ofMessage caller m && m.isUnreadBy caller := by
  rw [← List.mem_eraseDups (l := history.map _), ← keys_group]
  simp only [List.mem_map, Prod.mk.injEq]
  constructor
  · rintro ⟨c, hc, rfl, rfl⟩
    exact ⟨⟨c, hc, rfl⟩, (sumsUp_of_mem_group hc).unread⟩
  · rintro ⟨⟨c, hc, rfl⟩, rfl⟩
    exact ⟨c, hc, rfl, (sumsUp_of_mem_group hc).unread⟩

/-- The keys and the counts are the same whatever the order of the history. -/
theorem tallies_perm {other : List Message} (same : history.Perm other) :
    ((group caller history).map fun c => (c.key, c.unread)).Perm
      ((group caller other).map fun c => (c.key, c.unread)) := by
  have apart (h : List Message) : ((group caller h).map fun c => (c.key, c.unread)).Nodup := by
    apply List.Nodup.of_map Prod.fst
    rw [List.map_map]
    exact (group_groups caller h).keys
  rw [List.perm_ext_iff_of_nodup (apart history) (apart other)]
  rintro ⟨key, n⟩
  rw [mem_tallies_iff, mem_tallies_iff, (same.map _).mem_iff, same.countP_eq]

def Conversation.unreadUnder (key : ConversationKey) (cs : List Conversation) : Nat :=
  ((cs.find? fun c => c.key = key).map Conversation.unread).getD 0

/-- A conversation with the unread messages that later conversations have under its key. -/
def Conversation.continuedBy (later : List Conversation) (c : Conversation) : Conversation :=
  { c with unread := c.unread + unreadUnder c.key later }

theorem unreadUnder_group (key : ConversationKey) :
    Conversation.unreadUnder key (group caller history) =
      history.countP fun m => key = .ofMessage caller m && m.isUnreadBy caller := by
  unfold Conversation.unreadUnder
  cases found : (group caller history).find? fun c => decide (c.key = key) with
  | some c =>
      have own : c.key = key := by simpa using List.find?_some found
      rw [← own]
      exact (sumsUp_of_mem_group (List.mem_of_find?_eq_some found)).unread
  | none =>
      refine (countP_of_unheard ?_).symm
      intro m hm own
      obtain ⟨c, hc, isKey⟩ := (group_groups caller history).found m hm
      exact List.find?_eq_none.mp found c hc (decide_eq_true (isKey.trans own.symm))

theorem group_append (caller : Uuid) (history later : List Message) :
    group caller (history ++ later) =
      (group caller history).map (.continuedBy (group caller later)) ++
        (group caller later).filter fun c =>
          decide (c.key ∉ (group caller history).map Conversation.key) := by
  apply eq_of_sumsUp (fun c hc => sumsUp_of_mem_group hc)
  · intro d hd
    rcases List.mem_append.mp hd with known | new
    · obtain ⟨c, hc, rfl⟩ := List.mem_map.mp known
      have sums := sumsUp_of_mem_group hc
      constructor
      · rw [List.find?_append, Conversation.continuedBy, sums.last, Option.some_or]
      · rw [List.countP_append, Conversation.continuedBy, sums.unread, unreadUnder_group]
    · obtain ⟨hd, fresh⟩ := List.mem_filter.mp new
      have sums := sumsUp_of_mem_group hd
      have unheard : ∀ m ∈ history, d.key ≠ .ofMessage caller m := by
        intro m hm own
        obtain ⟨c, hc, isKey⟩ := (group_groups caller history).found m hm
        exact of_decide_eq_true fresh (List.mem_map.mpr ⟨c, hc, isKey.trans own.symm⟩)
      constructor
      · rw [List.find?_append, find?_of_unheard unheard, Option.none_or, sums.last]
      · rw [List.countP_append, countP_of_unheard unheard, Nat.zero_add, sums.unread]
  · have kept : ((group caller history).map (.continuedBy (group caller later))).map
        Conversation.key = (group caller history).map Conversation.key :=
      Rows.column_map fun c _ => rfl
    have fresh (cs : List Conversation) (keys : List ConversationKey) :
        (cs.filter fun c => decide (c.key ∉ keys)).map Conversation.key =
          (cs.map Conversation.key).filter fun key => decide (key ∉ keys) := by
      rw [List.filter_map]
      rfl
    rw [List.map_append, kept, fresh, keys_group, keys_group, keys_group, List.map_append,
      List.eraseDups_append, ← eraseDups_filter, List.removeAll]
    generalize history.map (ConversationKey.ofMessage caller) = known
    simp

/-! ## One pass -/

instance hashableUuid : Hashable Uuid := ⟨fun id => hash id.value⟩

instance hashableConversationKey : Hashable ConversationKey :=
  ⟨fun key => mixHash (hash key.counterpartId) (hash key.jobId)⟩

/-- The conversations found so far, and where the one of each key stands. -/
structure Register where
  places : Std.HashMap ConversationKey Nat
  entries : List Conversation

namespace Register

def greatestCount : Nat := 2 ^ 63 - 1

def empty : Register := ⟨∅, []⟩

def place (caller : Uuid) (m : Message) (r : Register) : Nat × Register :=
  let key := ConversationKey.ofMessage caller m
  match r.places[key]? with
  | some i => (i, r)
  | none =>
    (r.entries.length,
      ⟨r.places.insert key r.entries.length, r.entries ++ [⟨key, m, 0⟩]⟩)

def count? (i : Nat) (r : Register) : Option Register :=
  r.entries[i]?.bind fun c =>
    if c.unread < greatestCount then
      some { r with entries := r.entries.set i { c with unread := c.unread + 1 } }
    else none

def add? (caller : Uuid) (r : Register) (m : Message) : Option Register :=
  let (i, r) := r.place caller m
  if m.isUnreadBy caller then r.count? i else some r

def ofHistory? (caller : Uuid) (history : List Message) : Option Register :=
  history.foldlM (add? caller) empty

variable {r : Register}

/-- The table leads to the conversations, and to nothing else. -/
def Leads (r : Register) : Prop :=
  ∀ (key : ConversationKey) (i : Nat), r.places[key]? = some i ↔
    (r.entries.map Conversation.key)[i]? = some key

theorem leads_empty : empty.Leads := by
  intro key i
  simp [empty]

/-- The table stays right while the keys stay where they are. -/
theorem Leads.of_same {s : Register} (leads : r.Leads) (places : s.places = r.places)
    (keys : s.entries.map Conversation.key = r.entries.map Conversation.key) : s.Leads := by
  intro key i
  rw [places, keys]
  exact leads key i

theorem Leads.insert (leads : r.Leads) {c : Conversation} (new : ∀ d ∈ r.entries, d.key ≠ c.key) :
    Leads ⟨r.places.insert c.key r.entries.length, r.entries ++ [c]⟩ := by
  intro key i
  rw [Std.HashMap.getElem?_insert, List.map_append, List.getElem?_append]
  have free (i : Nat) : (r.entries.map Conversation.key)[i]? ≠ some c.key := by
    intro found
    obtain ⟨d, hd, same⟩ := List.mem_map.mp (List.mem_of_getElem? found)
    exact new d hd same
  by_cases own : c.key = key
  · subst own
    have := free i
    grind
  · have := leads key i
    grind

/-- A key in the table leads to the conversation of the key. -/
theorem Leads.known {key : ConversationKey} {i : Nat} (leads : r.Leads)
    (found : r.places[key]? = some i) :
    ∃ c, r.entries[i]? = some c ∧ c.key = key := by
  simpa using (leads key i).mp found

/-- A key that is not in the table has no conversation. -/
theorem Leads.new {key : ConversationKey} (leads : r.Leads) (missing : r.places[key]? = none) :
    ∀ c ∈ r.entries, c.key ≠ key := by
  intro c hc own
  obtain ⟨i, at_i⟩ := List.mem_iff_getElem?.mp hc
  have found : r.places[key]? = some i := (leads key i).mpr (by simp [at_i, own])
  rw [missing] at found
  cases found

end Register

/-- A message of a known conversation changes the one at its place. -/
theorem Conversation.add_eq_set {cs : List Conversation} {c : Conversation} {i : Nat}
    (keys : Rows.Unique key cs) (at_i : cs[i]? = some c) (own : c.key = .ofMessage caller m) :
    add caller m cs = cs.set i { c with unread := c.unread + unreadPart caller m } := by
  induction cs generalizing i with
  | nil => simp at at_i
  | cons d cs ih =>
      obtain ⟨others, rest⟩ := List.nodup_cons.mp keys
      cases i with
      | zero =>
          obtain rfl : d = c := by simpa using at_i
          simp [add, own]
      | succ i =>
          have later : cs[i]? = some c := by simpa using at_i
          have other : d.key ≠ .ofMessage caller m := by
            intro own'
            exact others (List.mem_map.mpr ⟨c, List.mem_of_getElem? later, own.trans own'.symm⟩)
          simp [add, other, ih rest later]

theorem unread_le {c : Conversation} (hc : c ∈ group caller history) :
    c.unread ≤ history.length := by
  rw [(sumsUp_of_mem_group hc).unread]
  exact List.countP_le_length

namespace Register

variable {r : Register}

/-- Counting at a place where a conversation stands succeeds below the greatest number. -/
theorem count?_of_place {i : Nat} {c : Conversation} (at_i : r.entries[i]? = some c)
    (low : c.unread < greatestCount) : r.count? i =
      some { r with entries := r.entries.set i { c with unread := c.unread + 1 } } := by
  simp [count?, at_i, low]

/-- One message more, in the table and in the conversations. -/
theorem add?_spec (leads : r.Leads) (isGroup : r.entries = group caller history)
    (few : history.length + 1 < 2 ^ 63) : ∃ s, r.add? caller m = some s ∧ s.Leads ∧
      s.entries = group caller (history ++ [m]) := by
  rw [group_append_one, ← isGroup]
  have keys : Rows.Unique Conversation.key r.entries := isGroup ▸ (group_groups caller history).keys
  cases found : r.places[ConversationKey.ofMessage caller m]? with
  | some i =>
      obtain ⟨c, at_i, own⟩ := leads.known found
      have low : c.unread < greatestCount := by
        have := unread_le (isGroup ▸ List.mem_of_getElem? at_i : c ∈ group caller history)
        simp only [greatestCount]
        omega
      rw [Conversation.add_eq_set keys at_i own]
      by_cases unread : m.isUnreadBy caller = true
      · refine ⟨{ r with entries := r.entries.set i { c with unread := c.unread + 1 } }, ?_,
          leads.of_same rfl ?_, ?_⟩
        · simp [add?, place, found, unread, count?_of_place at_i low]
        · have same : (r.entries.map Conversation.key)[i]? = some c.key := by simp [at_i]
          rw [List.map_set, set_same same]
        · simp [unreadPart, unread]
      · refine ⟨r, by simp [add?, place, found, unread], leads, ?_⟩
        simp [unreadPart, unread, set_same at_i]
  | none =>
      have new := leads.new found
      rw [Conversation.add_of_new new]
      have begun : Leads ⟨r.places.insert (ConversationKey.ofMessage caller m) r.entries.length,
          r.entries ++ [⟨.ofMessage caller m, m, 0⟩]⟩ :=
        leads.insert (c := ⟨.ofMessage caller m, m, 0⟩) new
      by_cases unread : m.isUnreadBy caller = true
      · refine ⟨⟨_, r.entries ++ [⟨.ofMessage caller m, m, 1⟩]⟩, ?_, begun.of_same rfl ?_, ?_⟩
        · simp [add?, place, found, unread, count?, greatestCount]
        · simp
        · simp [unreadPart, unread]
      · exact ⟨_, by simp [add?, place, found, unread], begun, by simp [unreadPart, unread]⟩

/-- One pass finds the conversations of a history of fewer than 2 ^ 63 messages. -/
theorem ofHistory?_spec (caller : Uuid) (history : List Message) (few : history.length < 2 ^ 63) :
    ∃ r, ofHistory? caller history = some r ∧ r.Leads ∧ r.entries = group caller history := by
  induction history using List.reverseRecOn with
  | nil => exact ⟨empty, rfl, leads_empty, rfl⟩
  | append_singleton history m ih =>
      rw [List.length_append, List.length_singleton] at few
      obtain ⟨r, passed, leads, isGroup⟩ := ih (by omega)
      obtain ⟨s, added, leads', isGroup'⟩ := add?_spec (m := m) leads isGroup few
      have both : ofHistory? caller (history ++ [m]) = some s := by
        rw [ofHistory?, List.foldlM_append, ← ofHistory?, passed]
        simp [added]
      exact ⟨s, both, leads', isGroup'⟩

end Register

/-- The conversations of a history.  The pass over it never fails and finds them.  There is one for
each key that occurs, in the order of first occurrence, with the first message of the key and the
number of its unread messages; all these numbers together are the unread messages of the caller, and
they do not depend on the order of the history.  A history that goes on adds to the numbers and
begins the conversations whose keys are new. -/
theorem conversations_of_history (caller : Uuid) (history : List Message)
    (few : history.length < 2 ^ 63) :
    (∃ r, Register.ofHistory? caller history = some r ∧ r.entries = group caller history) ∧
    Rows.Unique Conversation.key (group caller history) ∧
    (group caller history).map Conversation.key =
      (history.map (.ofMessage caller)).eraseDups ∧
    (∀ c ∈ group caller history,
      history.find? (fun m => c.key = .ofMessage caller m) = some c.last ∧
        c.unread = history.countP fun m => c.key = .ofMessage caller m && m.isUnreadBy caller) ∧
    ((group caller history).map Conversation.unread).sum = history.countP (·.isUnreadBy caller) ∧
    (∀ other, history.Perm other → ((group caller history).map fun c => (c.key, c.unread)).Perm
      ((group caller other).map fun c => (c.key, c.unread))) ∧
    ∀ later, group caller (history ++ later) =
      (group caller history).map (.continuedBy (group caller later)) ++
        (group caller later).filter fun c =>
          decide (c.key ∉ (group caller history).map Conversation.key) := by
  obtain ⟨r, passed, _, isGroup⟩ := Register.ofHistory?_spec caller history few
  have sums (c : Conversation) (hc : c ∈ group caller history) := sumsUp_of_mem_group hc
  exact ⟨⟨r, passed, isGroup⟩, (group_groups caller history).keys, keys_group caller history,
    fun c hc => ⟨(sums c hc).last, (sums c hc).unread⟩, sum_unread caller history,
    fun _ same => tallies_perm same, group_append caller history⟩

/-- A history of the user 1, with two conversations with the user 2, a note to oneself, and a
message between others. -/
def mixedHistory : List Message :=
  [⟨.ofNat 16, .ofNat 2, .ofNat 1, some (.ofNat 9), "Done", false, ⟨5⟩⟩,
    ⟨.ofNat 15, .ofNat 1, .ofNat 1, none, "Call", false, ⟨4⟩⟩,
    ⟨.ofNat 14, .ofNat 1, .ofNat 2, none, "Hello", false, ⟨3⟩⟩,
    ⟨.ofNat 13, .ofNat 2, .ofNat 1, some (.ofNat 9), "Started", false, ⟨2⟩⟩,
    ⟨.ofNat 12, .ofNat 3, .ofNat 2, none, "Hi", false, ⟨1⟩⟩,
    ⟨.ofNat 11, .ofNat 2, .ofNat 1, none, "Welcome", true, ⟨0⟩⟩]

theorem conversations_of_mixedHistory : mixedHistory.length < 2 ^ 63 ∧
    ∃ r, Register.ofHistory? (.ofNat 1) mixedHistory = some r ∧
      r.entries.map (fun c => (c.key, c.last.id, c.unread)) =
        [(⟨.ofNat 2, some (.ofNat 9)⟩, .ofNat 16, 2), (⟨.ofNat 1, none⟩, .ofNat 15, 1),
          (⟨.ofNat 2, none⟩, .ofNat 14, 0), (⟨.ofNat 3, none⟩, .ofNat 12, 0)] := by
  have few : mixedHistory.length < 2 ^ 63 := by decide
  obtain ⟨⟨r, passed, isGroup⟩, _⟩ := conversations_of_history (.ofNat 1) mixedHistory few
  exact ⟨few, r, passed, by rw [isGroup]; decide +kernel⟩

end GigBoard.Messaging
