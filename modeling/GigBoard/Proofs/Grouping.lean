import GigBoard.Messaging.Conversation
import GigBoard.Proofs.Rows
import Mathlib.Algebra.GroupWithZero.Nat
import Mathlib.Data.List.Induction

/-!
# The conversations of a history

`Groups` says what the conversations of a history are, without saying how they are found: one for each
key that occurs, with the first message of the key and the number of its unread messages, in the order
of these first messages.  Grouping a history gives its conversations, and their unread messages are
all that are unread.
-/

set_option autoImplicit false

namespace GigBoard.Messaging

open Rows (Unique)

variable {caller : Uuid} {m : Message} {history : List Message} {cs : List Conversation}

structure Groups (caller : Uuid) (history : List Message) (cs : List Conversation) : Prop where
  keys : Unique Conversation.key cs
  found : ∀ m ∈ history, ∃ c ∈ cs, c.key = .ofMessage caller m
  last : ∀ c ∈ cs, history.find? (fun m => c.key = .ofMessage caller m) = some c.last
  unread : ∀ c ∈ cs,
    c.unread = history.countP fun m => c.key = .ofMessage caller m && m.isUnreadBy caller
  order : (cs.map Conversation.last).Sublist history

namespace Conversation

/-- A conversation after one more message, which counts if it belongs to it. -/
def counting (caller : Uuid) (m : Message) (c : Conversation) : Conversation :=
  if c.key = .ofMessage caller m then { c with unread := c.unread + unreadPart caller m } else c

@[simp] theorem counting_key (c : Conversation) : (counting caller m c).key = c.key := by
  unfold counting
  split <;> rfl

@[simp] theorem counting_last (c : Conversation) : (counting caller m c).last = c.last := by
  unfold counting
  split <;> rfl

theorem counting_unread (c : Conversation) : (counting caller m c).unread =
    c.unread + [m].countP fun n => c.key = .ofMessage caller n && n.isUnreadBy caller := by
  by_cases own : c.key = .ofMessage caller m
  · by_cases unread : m.isUnreadBy caller = true
    · simp [counting, unreadPart, own, unread]
    · simp [counting, unreadPart, own, unread]
  · simp [counting, own]

theorem add_of_known (keys : Unique key cs) (known : ∃ c ∈ cs, c.key = .ofMessage caller m) :
    add caller m cs = cs.map (counting caller m) := by
  induction cs with
  | nil =>
      obtain ⟨c, hc, _⟩ := known
      cases hc
  | cons c cs ih =>
      obtain ⟨others, rest⟩ := List.nodup_cons.mp keys
      by_cases own : c.key = .ofMessage caller m
      · -- No other conversation has the key, so the rest stays as it is.
        have same : cs.map (counting caller m) = cs := by
          apply (List.map_congr_left ?_).trans (List.map_id cs)
          intro d hd
          have other : d.key ≠ .ofMessage caller m := by
            intro own'
            exact others (List.mem_map.mpr ⟨d, hd, own'.trans own.symm⟩)
          simp [counting, other]
        simp [add, counting, own, same]
      · have later : ∃ d ∈ cs, d.key = .ofMessage caller m := by
          simpa [own] using known
        simp [add, counting, own, ih rest later]

theorem add_of_new (new : ∀ c ∈ cs, c.key ≠ .ofMessage caller m) :
    add caller m cs = cs ++ [⟨.ofMessage caller m, m, unreadPart caller m⟩] := by
  induction cs with
  | nil => rfl
  | cons c cs ih =>
      obtain ⟨other, rest⟩ := List.forall_mem_cons.mp new
      simp [add, other, ih rest]

theorem sum_unread_add (caller : Uuid) (m : Message) (cs : List Conversation) :
    ((add caller m cs).map unread).sum = (cs.map unread).sum + unreadPart caller m := by
  induction cs with
  | nil => simp [add]
  | cons c cs ih =>
      by_cases own : c.key = .ofMessage caller m
      · simp only [add, own, if_true, List.map_cons, List.sum_cons]
        omega
      · simp only [add, own, if_false, List.map_cons, List.sum_cons, ih]
        omega

end Conversation

open Conversation (counting unreadPart)

theorem Groups.nil (caller : Uuid) : Groups caller [] [] where
  keys := List.nodup_nil
  found _ hm := by cases hm
  last _ hc := by cases hc
  unread _ hc := by cases hc
  order := List.Sublist.refl _

theorem Groups.count (groups : Groups caller history cs)
    (known : ∃ c ∈ cs, c.key = .ofMessage caller m) :
    Groups caller (history ++ [m]) (cs.map (counting caller m)) where
  keys := groups.keys.map fun c _ => c.counting_key
  found n hn := by
    obtain ⟨c, hc, same⟩ : ∃ c ∈ cs, c.key = .ofMessage caller n := by
      rcases List.mem_append.mp hn with hn | hn
      · exact groups.found n hn
      · rw [List.mem_singleton.mp hn]
        exact known
    exact ⟨counting caller m c, List.mem_map_of_mem hc, by rw [c.counting_key, same]⟩
  last c hc := by
    obtain ⟨d, hd, rfl⟩ := List.mem_map.mp hc
    rw [d.counting_key, d.counting_last, List.find?_append, groups.last d hd, Option.some_or]
  unread c hc := by
    obtain ⟨d, hd, rfl⟩ := List.mem_map.mp hc
    rw [d.counting_key, d.counting_unread, List.countP_append, groups.unread d hd]
  order := by
    have same : (cs.map (counting caller m)).map Conversation.last = cs.map Conversation.last := by
      simp [List.map_map, Function.comp_def]
    rw [same]
    exact groups.order.trans (List.sublist_append_left history [m])

/-- Nothing is found under a key that no message has. -/
theorem find?_of_unheard {key : ConversationKey}
    (unheard : ∀ n ∈ history, key ≠ .ofMessage caller n) :
    history.find? (fun n => key = .ofMessage caller n) = none := by
  apply List.find?_eq_none.mpr
  intro n hn
  simpa using unheard n hn

theorem countP_of_unheard {key : ConversationKey}
    (unheard : ∀ n ∈ history, key ≠ .ofMessage caller n) :
    history.countP (fun n => key = .ofMessage caller n && n.isUnreadBy caller) = 0 := by
  apply List.countP_eq_zero.mpr
  intro n hn
  simp [unheard n hn]

theorem Groups.begin (groups : Groups caller history cs)
    (new : ∀ c ∈ cs, c.key ≠ .ofMessage caller m) :
    Groups caller (history ++ [m]) (cs ++ [⟨.ofMessage caller m, m, unreadPart caller m⟩]) := by
  have unheard : ∀ n ∈ history, ConversationKey.ofMessage caller m ≠ .ofMessage caller n := by
    intro n hn same
    obtain ⟨c, hc, key⟩ := groups.found n hn
    exact new c hc (key.trans same.symm)
  constructor
  · exact groups.keys.append_one new
  · intro n hn
    rcases List.mem_append.mp hn with hn | hn
    · obtain ⟨c, hc, key⟩ := groups.found n hn
      exact ⟨c, List.mem_append_left _ hc, key⟩
    · rw [List.mem_singleton.mp hn]
      exact ⟨_, List.mem_append_right _ (List.mem_singleton.mpr rfl), rfl⟩
  · intro c hc
    rw [List.find?_append]
    rcases List.mem_append.mp hc with hc | hc
    · rw [groups.last c hc, Option.some_or]
    · rw [List.mem_singleton.mp hc]
      simp [find?_of_unheard unheard]
  · intro c hc
    rw [List.countP_append]
    rcases List.mem_append.mp hc with hc | hc
    · rw [← groups.unread c hc]
      simp [new c hc]
    · rw [List.mem_singleton.mp hc]
      rw [countP_of_unheard unheard]
      by_cases unread : m.isUnreadBy caller = true
      · simp [unreadPart, unread]
      · simp [unreadPart, unread]
  · rw [List.map_append]
    exact groups.order.append (List.Sublist.refl [m])

theorem group_append_one (caller : Uuid) (history : List Message) (m : Message) :
    Conversation.group caller (history ++ [m]) =
      Conversation.add caller m (Conversation.group caller history) := by
  simp [Conversation.group]

theorem group_groups (caller : Uuid) (history : List Message) :
    Groups caller history (Conversation.group caller history) := by
  -- Messages are added behind the others, so the induction is on the history from its end.
  induction history using List.reverseRecOn with
  | nil => exact .nil caller
  | append_singleton history m ih =>
      rw [group_append_one]
      by_cases known : ∃ c ∈ Conversation.group caller history, c.key = .ofMessage caller m
      · rw [Conversation.add_of_known ih.keys known]
        exact ih.count known
      · have new : ∀ c ∈ Conversation.group caller history, c.key ≠ .ofMessage caller m := by
          intro c hc own
          exact known ⟨c, hc, own⟩
        rw [Conversation.add_of_new new]
        exact ih.begin new

/-- The unread messages of all conversations are all that are unread. -/
theorem sum_unread (caller : Uuid) (history : List Message) :
    ((Conversation.group caller history).map Conversation.unread).sum =
      history.countP (·.isUnreadBy caller) := by
  induction history using List.reverseRecOn with
  | nil => rfl
  | append_singleton history m ih =>
      rw [group_append_one, Conversation.sum_unread_add, ih, List.countP_append]
      by_cases unread : m.isUnreadBy caller = true
      · simp [unreadPart, unread]
      · simp [unreadPart, unread]

theorem Groups.last_mem (groups : Groups caller history cs) {c : Conversation} (hc : c ∈ cs) :
    c.last ∈ history :=
  List.mem_of_find?_eq_some (groups.last c hc)

theorem Groups.last_key (groups : Groups caller history cs) {c : Conversation} (hc : c ∈ cs) :
    c.key = .ofMessage caller c.last := by
  simpa using List.find?_some (groups.last c hc)

theorem Groups.countP_eq_one (groups : Groups caller history cs) (member : m ∈ history) :
    cs.countP (fun c => c.key = .ofMessage caller m) = 1 := by
  have atMost : cs.countP (fun c => c.key = .ofMessage caller m) ≤ 1 := by
    apply groups.keys.countP_le_one
    intro c _ d _ isC isD
    exact (of_decide_eq_true isC).trans (of_decide_eq_true isD).symm
  obtain ⟨c, hc, own⟩ := groups.found m member
  have atLeast : 0 < cs.countP (fun c => c.key = .ofMessage caller m) :=
    List.countP_pos_iff.mpr ⟨c, hc, decide_eq_true own⟩
  omega

end GigBoard.Messaging
