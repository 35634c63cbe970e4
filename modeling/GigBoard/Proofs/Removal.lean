import GigBoard.Proofs.Entries
import GigBoard.Proofs.Unread
import Mathlib.Data.List.Find

/-!
# Removing a job

A job goes with its milestones, applications and reviews, but the messages about it stay and are about
no job from then on.  So the conversation of two users about the job becomes a part of what they write
about no job: its messages come in among the others, and no user has more or less to read.
-/

set_option autoImplicit false

namespace GigBoard

open Http (Request)
open Messaging (Conversation ConversationKey ConversationView Message MessageView Shows)
open Store (Newer detachedFrom)

variable {ctx : Context} {r : Request} {s s' : Store} {caller id : Uuid}

namespace Messaging

variable {history : List Message} {cs : List Conversation} {m : Message} {c d : Conversation}

/-! ## Conversations that the job does not touch -/

/-- A conversation is about a job, or is the one about no job of users who write about the job. -/
def ConversationKey.Touched (id : Uuid) (cs : List Conversation) (key : ConversationKey) : Prop :=
  key.jobId = some id ∨
    (key.jobId = none ∧ ∃ c ∈ cs, c.key = ⟨key.counterpartId, some id⟩)

instance (id : Uuid) (cs : List Conversation) (key : ConversationKey) :
    Decidable (key.Touched id cs) :=
  inferInstanceAs (Decidable (_ ∨ _))

theorem ofMessage_detached (about : m.jobId = some id) :
    ConversationKey.ofMessage caller (detachedFrom id m) =
      ⟨(ConversationKey.ofMessage caller m).counterpartId, none⟩ := by
  rw [detachedFrom, if_pos about]
  rfl

theorem detachedFrom_of_ne (other : m.jobId ≠ some id) : detachedFrom id m = m := if_neg other

theorem detachedFrom_jobId_ne (id : Uuid) (m : Message) : (detachedFrom id m).jobId ≠ some id := by
  unfold detachedFrom
  split
  · simp
  · assumption

theorem ofMessage_of_untouched (groups : Groups caller history cs) {key : ConversationKey}
    (untouched : ¬ key.Touched id cs) (hm : m ∈ history) :
    key = .ofMessage caller (detachedFrom id m) ↔ key = .ofMessage caller m := by
  by_cases about : m.jobId = some id
  · rw [ofMessage_detached about]
    constructor
    · rintro rfl
      obtain ⟨c, hc, own⟩ := groups.found m hm
      refine absurd (.inr ⟨rfl, c, hc, own.trans ?_⟩) untouched
      exact congrArg (ConversationKey.mk _) about
    · rintro rfl
      exact absurd (.inl about) untouched
  · rw [detachedFrom_of_ne about]

/-- A conversation that the job does not touch stays as it is. -/
theorem mem_detached_of_untouched (groups : Groups caller history cs)
    {ds : List Conversation} (groups' : Groups caller (history.map (detachedFrom id)) ds)
    (untouched : ¬ c.key.Touched id cs) : c ∈ ds ↔ c ∈ cs := by
  have sameKey : ∀ m ∈ history, decide (c.key = .ofMessage caller (detachedFrom id m)) =
      decide (c.key = .ofMessage caller m) := by
    intro m hm
    exact decide_eq_decide.mpr (ofMessage_of_untouched groups untouched hm)
  have sameFirst : (history.map (detachedFrom id)).find? (fun m => c.key = .ofMessage caller m) =
      history.find? (fun m => c.key = .ofMessage caller m) := by
    rw [List.find?_map, Function.comp_def, List.find?_congr sameKey]
    cases first : history.find? (fun m => c.key = .ofMessage caller m) with
    | none => rfl
    | some m =>
        have own : c.key = .ofMessage caller m := by simpa using List.find?_some first
        have other : m.jobId ≠ some id := by
          intro about
          exact untouched (.inl (by rw [own]; exact about))
        rw [Option.map_some, detachedFrom_of_ne other]
  have sameCount : (history.map (detachedFrom id)).countP (fun m =>
      c.key = .ofMessage caller m && m.isUnreadBy caller) =
        history.countP (fun m => c.key = .ofMessage caller m && m.isUnreadBy caller) := by
    rw [List.countP_map]
    apply List.countP_congr
    intro m hm
    rw [Function.comp_apply, sameKey m hm, isUnreadBy_detachedFrom]
  rw [groups'.mem_iff, groups.mem_iff, sameFirst, sameCount]

/-! ## Conversations about the job -/

variable {other : Uuid}

theorem ofMessage_detached_iff (id other : Uuid) (m : Message) :
    ConversationKey.mk other none = .ofMessage caller (detachedFrom id m) ↔
      ConversationKey.mk other none = .ofMessage caller m ∨
        ConversationKey.mk other (some id) = .ofMessage caller m := by
  by_cases about : m.jobId = some id
  · rw [ofMessage_detached about]
    simp [ConversationKey.ofMessage, about]
  · rw [detachedFrom_of_ne about]
    simp [ConversationKey.ofMessage, Ne.symm about]

/-- What is unread about no job afterwards was unread about no job or about the job. -/
theorem countP_joined (history : List Message) (id other : Uuid) :
    (history.map (detachedFrom id)).countP (fun m =>
      ConversationKey.mk other none = .ofMessage caller m && m.isUnreadBy caller) =
        history.countP (fun m =>
          ConversationKey.mk other (some id) = .ofMessage caller m && m.isUnreadBy caller) +
        history.countP (fun m =>
          ConversationKey.mk other none = .ofMessage caller m && m.isUnreadBy caller) := by
  rw [List.countP_map]
  induction history with
  | nil => rfl
  | cons m history ih =>
      simp only [List.countP_cons, ih, Function.comp_apply, isUnreadBy_detachedFrom,
        ofMessage_detached_iff]
      by_cases aboutNone : ConversationKey.mk other none = .ofMessage caller m
      · have notJob : ConversationKey.mk other (some id) ≠ .ofMessage caller m := by
          rw [← aboutNone]
          simp
        simp only [aboutNone, notJob]
        simp
        omega
      · simp [aboutNone]
        omega

/-- The last message of a conversation is the newest of its messages. -/
theorem Groups.newest (groups : Groups caller history cs)
    (sorted : history.Pairwise (Newer Message.createdAt Message.id)) (hc : c ∈ cs)
    (hm : m ∈ history) (own : c.key = .ofMessage caller m) :
    m = c.last ∨ Newer Message.createdAt Message.id c.last m :=
  ((Store.find?_eq_some_iff_newest sorted).mp (groups.last c hc)).2.2 m hm (decide_eq_true own)

/-- The conversation about no job after the removal, if its first message is known among those that
were about no job or about the job. -/
theorem mem_joined {ds : List Conversation}
    (groups' : Groups caller (history.map (detachedFrom id)) ds)
    (sorted : history.Pairwise (Newer Message.createdAt Message.id)) {last : Message}
    (hm : last ∈ history) (own : ConversationKey.mk other none = .ofMessage caller last ∨
      ConversationKey.mk other (some id) = .ofMessage caller last)
    (newest : ∀ m ∈ history, ConversationKey.mk other none = .ofMessage caller m ∨
      ConversationKey.mk other (some id) = .ofMessage caller m →
        m = last ∨ Newer Message.createdAt Message.id last m) :
    ⟨⟨other, none⟩, detachedFrom id last,
      history.countP (fun m =>
        ConversationKey.mk other (some id) = .ofMessage caller m && m.isUnreadBy caller) +
      history.countP (fun m =>
        ConversationKey.mk other none = .ofMessage caller m && m.isUnreadBy caller)⟩ ∈ ds := by
  rw [groups'.mem_iff]
  refine ⟨?_, (countP_joined history id other).symm⟩
  rw [List.find?_map, Function.comp_def, Option.map_eq_some_iff]
  refine ⟨last, (Store.find?_eq_some_iff_newest sorted).mpr ⟨hm, ?_, ?_⟩, rfl⟩
  · exact decide_eq_true ((ofMessage_detached_iff id other last).mpr own)
  · intro m hm isOne
    exact newest m hm ((ofMessage_detached_iff id other m).mp (of_decide_eq_true isOne))

theorem mem_moved (groups : Groups caller history cs) {ds : List Conversation}
    (groups' : Groups caller (history.map (detachedFrom id)) ds)
    (sorted : history.Pairwise (Newer Message.createdAt Message.id)) (hc : c ∈ cs)
    (about : c.key = ⟨other, some id⟩) (alone : ∀ d ∈ cs, d.key ≠ ⟨other, none⟩) :
    ⟨⟨other, none⟩, { c.last with jobId := none }, c.unread⟩ ∈ ds := by
  have key := groups.last_key hc
  have aboutJob : c.last.jobId = some id := by
    rw [about] at key
    exact (congrArg ConversationKey.jobId key).symm
  have nothing : ∀ m ∈ history, ConversationKey.mk other none ≠ .ofMessage caller m := by
    intro m hm own
    obtain ⟨d, hd, keyD⟩ := groups.found m hm
    exact alone d hd (keyD.trans own.symm)
  have joined := mem_joined groups' sorted (groups.last_mem hc) (.inr (about.symm.trans key))
    fun m hm own => groups.newest sorted hc hm (about.trans (own.resolve_left (nothing m hm)))
  have zero : history.countP (fun m =>
      ConversationKey.mk other none = .ofMessage caller m && m.isUnreadBy caller) = 0 := by
    rw [List.countP_eq_zero]
    intro m hm
    simp [nothing m hm]
  have unread := groups.unread c hc
  rw [about] at unread
  rw [zero, Nat.add_zero, ← unread, detachedFrom, if_pos aboutJob] at joined
  exact joined

theorem mem_merged (groups : Groups caller history cs) {ds : List Conversation}
    (groups' : Groups caller (history.map (detachedFrom id)) ds)
    (sorted : history.Pairwise (Newer Message.createdAt Message.id)) (hc : c ∈ cs)
    (about : c.key = ⟨other, some id⟩) (hd : d ∈ cs) (aboutNone : d.key = ⟨other, none⟩) :
    ⟨⟨other, none⟩,
      if Newer Message.createdAt Message.id c.last d.last then { c.last with jobId := none }
      else d.last, c.unread + d.unread⟩ ∈ ds := by
  have keyC := about.symm.trans (groups.last_key hc)
  have keyD := aboutNone.symm.trans (groups.last_key hd)
  have newestC := fun m hm own => groups.newest (m := m) sorted hc hm (about.trans own)
  have newestD := fun m hm own => groups.newest (m := m) sorted hd hm (aboutNone.trans own)
  have unreadC := groups.unread c hc
  have unreadD := groups.unread d hd
  rw [about] at unreadC
  rw [aboutNone] at unreadD
  rw [unreadC, unreadD]
  split
  · rename_i newer
    have aboutJob : c.last.jobId = some id := (congrArg ConversationKey.jobId keyC).symm
    have joined := mem_joined groups' sorted (groups.last_mem hc) (.inr keyC) ?_
    · rw [detachedFrom, if_pos aboutJob] at joined
      exact joined
    · intro m hm own
      rcases own with own | own
      · rcases newestD m hm own with rfl | later
        · exact .inr newer
        · exact .inr (newer.trans later)
      · exact newestC m hm own
  · rename_i older
    have aboutNoJob : d.last.jobId ≠ some id := by
      have noJob : d.last.jobId = none := (congrArg ConversationKey.jobId keyD).symm
      simp [noJob]
    have differ : c.last ≠ d.last := by
      intro same
      rw [same, ← keyD] at keyC
      cases keyC
    have newer := (Rows.related_of_pairwise sorted (groups.last_mem hc) (groups.last_mem hd)
      differ).resolve_left older
    have joined := mem_joined groups' sorted (groups.last_mem hd) (.inl keyD) ?_
    · rw [detachedFrom_of_ne aboutNoJob] at joined
      exact joined
    · intro m hm own
      rcases own with own | own
      · exact newestD m hm own
      · rcases newestC m hm own with rfl | later
        · exact .inr newer
        · exact .inr (newer.trans later)

/-! ## Conversation lists -/

def ConversationView.Touched (id : Uuid) (views : List ConversationView) (v : ConversationView) :
    Prop :=
  v.job.map (·.id) = some id ∨
    (v.job = none ∧ ∃ w ∈ views, w.otherUser.id = v.otherUser.id ∧ w.job.map (·.id) = some id)

instance (id : Uuid) (views : List ConversationView) (v : ConversationView) :
    Decidable (v.Touched id views) :=
  inferInstanceAs (Decidable (_ ∨ _))

def ConversationView.aboutNoJob (v : ConversationView) (last : MessageView) (unread : Nat) :
    ConversationView where
  id := ConversationKey.text ⟨v.otherUser.id, none⟩
  otherUser := v.otherUser
  job := none
  lastMessage := last
  unreadCount := unread

/-- How a list of conversations goes on without a job: what was written about the job moves to what
is written about no job, or merges with it, and the others stay. -/
structure WithoutJob (id : Uuid) (views views' : List ConversationView) : Prop where
  gone : ∀ v ∈ views', v.job.map (·.id) ≠ some id
  once : views'.Pairwise fun v w =>
    ¬ (v.otherUser.id = w.otherUser.id ∧ v.job.map (·.id) = w.job.map (·.id))
  moved : ∀ v ∈ views, v.job.map (·.id) = some id →
    (∀ w ∈ views, w.otherUser.id = v.otherUser.id → w.job ≠ none) →
      v.aboutNoJob { v.lastMessage with jobId := none } v.unreadCount ∈ views'
  merged : ∀ v ∈ views, v.job.map (·.id) = some id → ∀ w ∈ views,
    w.otherUser.id = v.otherUser.id → w.job = none →
      v.aboutNoJob
        (if Newer MessageView.createdAt MessageView.id v.lastMessage w.lastMessage then
          { v.lastMessage with jobId := none } else w.lastMessage)
        (v.unreadCount + w.unreadCount) ∈ views'
  others : views'.filter (fun v => ¬ v.Touched id views) =
    views.filter fun v => ¬ v.Touched id views
  newest : views'.Pairwise fun v w =>
    Newer MessageView.createdAt MessageView.id v.lastMessage w.lastMessage

section Lists

variable {views views' : List ConversationView}

theorem ConversationView.touched_iff (v : ConversationView) :
    v.Touched id views ↔ v.row.key.Touched id (views.map ConversationView.row) := by
  have sameNone : v.row.key.jobId = none ↔ v.job = none := Option.map_eq_none_iff
  have sameOne : (∃ w ∈ views, w.otherUser.id = v.otherUser.id ∧ w.job.map (·.id) = some id) ↔
      ∃ c ∈ views.map ConversationView.row, c.key = ⟨v.row.key.counterpartId, some id⟩ := by
    constructor
    · rintro ⟨w, hw, sameOther, about⟩
      refine ⟨w.row, List.mem_map_of_mem hw, ?_⟩
      rw [row, sameOther, about]
      rfl
    · rintro ⟨c, hc, key⟩
      obtain ⟨w, hw, rfl⟩ := List.mem_map.mp hc
      exact ⟨w, hw, congrArg ConversationKey.counterpartId key, congrArg ConversationKey.jobId key⟩
  rw [Touched, ConversationKey.Touched, sameNone, sameOne]
  rfl

theorem ConversationView.aboutNoJob_row (v : ConversationView) (last : MessageView)
    (unread : Nat) :
    (v.aboutNoJob last unread).row = ⟨⟨v.otherUser.id, none⟩, last.row, unread⟩ := rfl

theorem ConversationView.ShownIn.aboutNoJob {v : ConversationView} (shown : v.ShownIn s)
    {last : MessageView} {unread : Nat} (sender : last.ShowsSender s)
    (receiver : last.ShowsReceiver s) : (v.aboutNoJob last unread).ShownIn s where
  id := by
    rw [aboutNoJob_row]
    simp only [ConversationView.aboutNoJob]
  -- Without the definition opened first, the two conversations would be compared name by name.
  other := by
    simp only [ConversationView.aboutNoJob]
    exact shown.other
  job _ isJob := by cases isJob
  sender := sender
  receiver := receiver

theorem Shows.withoutJob (keyed : s.Keyed) (keyed' : (s.withoutJob id).Keyed)
    (shows : Shows s caller views) (shows' : Shows (s.withoutJob id) caller views') :
    views'.map ConversationView.row =
        Conversation.group caller ((historyOf s caller).map (detachedFrom id)) ∧
      WithoutJob id views views' := by
  have detached : historyOf (s.withoutJob id) caller = (historyOf s caller).map (detachedFrom id) :=
    historyOf_map (keeps_detachedFrom id) rfl caller
  have rows' := shows'.rows
  have sorted := historyOf_sorted keyed caller
  have sorted' := historyOf_sorted keyed' caller
  rw [detached] at rows' sorted'
  have groups := group_groups caller (historyOf s caller)
  rw [← shows.rows] at groups
  have groups' := group_groups caller ((historyOf s caller).map (detachedFrom id))
  rw [← rows'] at groups'
  have shown' : ∀ v ∈ views', v.ShownIn s := by
    intro v hv
    refine (shows'.shown v hv).mono (List.Subset.refl _) fun reference isJob => ?_
    obtain ⟨j, hj, is⟩ := (shows'.shown v hv).job reference isJob
    exact ⟨j, List.mem_of_mem_filter hj, is⟩
  -- A conversation whose row is known to be there is the one that is shown.
  have isShown : ∀ v : ConversationView, v.ShownIn s →
      v.row ∈ views'.map ConversationView.row → v ∈ views' := by
    intro v shown member
    obtain ⟨w, hw, sameRow⟩ := List.mem_map.mp member
    rw [← ConversationView.eq_of_row keyed sameRow (shown' w hw) shown]
    exact hw
  have aboutJob : ∀ v : ConversationView, v.job.map (·.id) = some id →
      v.row.key = ⟨v.otherUser.id, some id⟩ := fun v about => congrArg (ConversationKey.mk _) about
  refine ⟨rows', ?_⟩
  constructor
  · intro v hv about
    obtain ⟨m, hm, isLast⟩ := List.mem_map.mp (groups'.last_mem (List.mem_map_of_mem hv))
    have key := groups'.last_key (List.mem_map_of_mem hv)
    rw [← isLast] at key
    have aboutLast : (detachedFrom id m).jobId = some id :=
      (congrArg ConversationKey.jobId key).symm.trans about
    exact detachedFrom_jobId_ne id m aboutLast
  · have keys := (Rows.unique_iff_pairwise _ _).mp groups'.keys
    rw [List.pairwise_map] at keys
    refine keys.imp ?_
    rintro v w differ ⟨sameOther, sameJob⟩
    apply differ
    rw [ConversationView.row, ConversationView.row, sameOther, sameJob]
  · intro v hv about alone
    have shown := shows.shown v hv
    refine isShown _ (shown.aboutNoJob shown.sender shown.receiver) ?_
    refine mem_moved groups groups' sorted (List.mem_map_of_mem hv) (aboutJob v about) ?_
    intro c hc key
    obtain ⟨w, hw, rfl⟩ := List.mem_map.mp hc
    exact alone w hw (congrArg ConversationKey.counterpartId key)
      (Option.map_eq_none_iff.mp (congrArg ConversationKey.jobId key))
  · intro v hv about w hw sameOther noJob
    have shownV := shows.shown v hv
    have shownW := shows.shown w hw
    have keyW : w.row.key = ⟨v.otherUser.id, none⟩ := by
      rw [ConversationView.row, sameOther, noJob]
      rfl
    have merged := mem_merged groups groups' sorted (List.mem_map_of_mem hv) (aboutJob v about)
      (List.mem_map_of_mem hw) keyW
    by_cases newer : Newer Message.createdAt Message.id v.row.last w.row.last
    · have newer' : Newer MessageView.createdAt MessageView.id v.lastMessage w.lastMessage := newer
      rw [if_pos newer] at merged
      rw [if_pos newer']
      exact isShown _ (shownV.aboutNoJob shownV.sender shownV.receiver) merged
    · have older : ¬ Newer MessageView.createdAt MessageView.id v.lastMessage w.lastMessage := newer
      rw [if_neg newer] at merged
      rw [if_neg older]
      exact isShown _ (shownV.aboutNoJob shownW.sender shownW.receiver) merged
  · apply ConversationView.eq_of_rows keyed
    · intro v hv
      exact shown' v (List.mem_filter.mp hv).1
    · intro v hv
      exact shows.shown v (List.mem_filter.mp hv).1
    · let untouched (c : Conversation) : Bool :=
        ¬ c.key.Touched id (views.map ConversationView.row)
      have sameTest : (fun v : ConversationView => decide (¬ v.Touched id views)) =
          untouched ∘ ConversationView.row := by
        funext v
        simp only [untouched, Function.comp_apply, v.touched_iff]
      rw [sameTest, ← List.filter_map, ← List.filter_map]
      apply Store.eq_of_newer ((groups'.sorted sorted').filter _) ((groups.sorted sorted).filter _)
      intro c
      simp only [List.mem_filter, untouched, decide_eq_true_eq]
      exact and_congr_left fun notTouched => mem_detached_of_untouched groups groups' notTouched
  · exact shows'.newest keyed'

end Lists

end Messaging

/-! ## Requests that are refused -/

namespace Hiring

variable {j : Job}

theorem findJob_of_missing (missing : ∀ k ∈ s.jobs, k.id ≠ id) :
    findJob id ctx s = (.error (.missing "job"), s) := by
  have nothing : s.jobs.find? (fun k => decide (k.id = id)) = none := by
    rw [List.find?_eq_none]
    intro k hk same
    exact missing k hk (of_decide_eq_true same)
  have read : Store.job? id s = .ok none := by
    rw [Store.job?, nothing]
    rfl
  exact Action.bind_of_ok (Action.query_of_ok read)

theorem findJob_of_readable (found : s.FindsJob id j) (readable : j.isReadable = true) :
    findJob id ctx s = (.ok j, s) := by
  have read : Store.job? id s = .ok (some j) := by
    rw [Store.job?, found, Store.readRow, Option.all_some, if_pos readable]
  exact Action.bind_of_ok (Action.query_of_ok read)

theorem findJob_of_unreadable (found : s.FindsJob id j) (unreadable : ¬ j.isReadable = true) :
    findJob id ctx s = (.error (.store .unreadable), s) := by
  have failed : Store.job? id s = .error .unreadable := by
    rw [Store.job?, found, Store.readRow, Option.all_some, if_neg unreadable]
  apply Action.bind_of_error
  rw [Action.query, failed]

end Hiring

namespace Server

variable {server : Server}

/-- A request to remove a job that fails changes nothing. -/
theorem RemovesJob.of_error (removes : server.RemovesJob caller id ctx r) {f : Failure}
    (failed : Hiring.removeJob caller id ctx s = (.error f, s)) :
    (server.handle ctx r s).1.status = f.problem.status ∧ (server.handle ctx r s).2 = s := by
  have asked := asked?_removeJob_iff.mpr removes
  have fails : (Call.removeJob caller id).perform ctx s = (.error f, s) :=
    Action.bind_of_error failed
  obtain ⟨store, status⟩ := handle_of_asked (s := s) asked
  rw [store, status, perform, fails]
  exact ⟨rfl, rfl⟩

theorem RemovesJob.of_missing (removes : server.RemovesJob caller id ctx r)
    (connected : ctx.connected = true) (missing : ∀ k ∈ s.jobs, k.id ≠ id) :
    (server.handle ctx r s).1.status = 404 :=
  (removes.of_error ((Action.bind_of_ok (Action.connect_of_connected connected)).trans
    (Action.bind_of_error (Hiring.findJob_of_missing missing)))).1

theorem RemovesJob.of_other {j : Hiring.Job} (removes : server.RemovesJob caller id ctx r)
    (connected : ctx.connected = true) (found : s.FindsJob id j) (other : j.clientId ≠ caller) :
    (server.handle ctx r s).1.status = if j.isReadable then 403 else 500 := by
  split
  · rename_i readable
    exact (removes.of_error (Hiring.removeJob_of_other connected
      (Hiring.findJob_of_readable found readable) other)).1
  · rename_i unreadable
    exact (removes.of_error ((Action.bind_of_ok (Action.connect_of_connected connected)).trans
      (Action.bind_of_error (Hiring.findJob_of_unreadable found unreadable)))).1

/-! ## Requests that are granted -/

/-- What the removal of a job makes of the store and of what users are answered with. -/
structure JobRemoved (server : Server) (id : Uuid) (ctx : Context) (r : Request) (s : Store) :
    Prop where
  store : (server.handle ctx r s).2 = s.withoutJob id
  counted : ∀ user ctx₁ r₁ ctx₂ r₂, server.AsksUnread user ctx₁ r₁ → ctx₁.connected = true →
    server.AsksUnread user ctx₂ r₂ → ctx₂.connected = true → ∃ n,
      (server.handle ctx₁ r₁ s).1.Counts n ∧
        (server.handle ctx₂ r₂ (server.handle ctx r s).2).1.Counts n
  conversations : ∀ user, server.RelatesInboxes user s (server.handle ctx r s).2
    fun views views' =>
      views'.map ConversationView.row =
          Conversation.group user ((Messaging.historyOf s user).map (detachedFrom id)) ∧
        Messaging.WithoutJob id views views'

theorem RemovesJob.removed (sound : s.Sound) (removes : server.RemovesJob caller id ctx r)
    (answered : (server.handle ctx r s).1.status = 200) : server.JobRemoved id ctx r s := by
  have sound' := server.handle_sound ctx r sound
  have store : (server.handle ctx r s).2 = s.withoutJob id := by
    rcases removes.cases s with ⟨failed, _⟩ | ⟨_, _, store⟩
    · omega
    · exact store
  rw [store] at sound'
  refine ⟨store, ?_, ?_⟩
  · intro user ctx₁ r₁ ctx₂ r₂ before connected after connected'
    refine ⟨_, before.counts connected, ?_⟩
    have counts := after.counts (s := (server.handle ctx r s).2) connected'
    rw [store, Store.withoutJob, Messaging.countP_detached] at counts
    rw [store]
    exact counts
  · intro user
    rw [store]
    refine relatesInboxes_of_shows sound sound' ?_ fun views views' shows shows' =>
      shows.withoutJob sound.keyed sound'.keyed shows'
    exact Messaging.loadable_map (Messaging.keeps_detachedFrom id) rfl rfl

/-- In a store that satisfies its constraints, a request to remove a job that is answered with 200
leaves the store without the job and what belongs to it, and the messages about it are about no job.
A job that is missing or somebody else's is told so, the latter if its times can be read back, and
nothing changes. -/
theorem job_removal (server : Server) (s : Store) (holds : s.Constrained) (caller id : Uuid)
    (ctx : Context) (r : Request) (removes : server.RemovesJob caller id ctx r) :
    ((server.handle ctx r s).1.status = 200 → server.JobRemoved id ctx r s) ∧
    ((∀ j ∈ s.jobs, j.id ≠ id) → (server.handle ctx r s).2 = s ∧
      (ctx.connected = true → (server.handle ctx r s).1.status = 404)) ∧
    (∀ j ∈ s.jobs, j.id = id → j.clientId ≠ caller → (server.handle ctx r s).2 = s ∧
      (ctx.connected = true →
        (server.handle ctx r s).1.status = if j.isReadable then 403 else 500)) := by
  have sound := holds.sound
  refine ⟨removes.removed sound, ?_, ?_⟩
  · intro missing
    refine ⟨?_, fun connected => removes.of_missing connected missing⟩
    rcases removes.cases s with ⟨_, unchanged⟩ | ⟨⟨j, found, _⟩, _⟩
    · exact unchanged
    · exact absurd found.id_eq (missing j found.mem)
  · intro j hj same other
    have found : s.FindsJob id j := sound.keyed.jobId.find?_eq hj same
    refine ⟨?_, fun connected => removes.of_other connected found other⟩
    rcases removes.cases s with ⟨_, unchanged⟩ | ⟨⟨k, isFound, owned⟩, _⟩
    · exact unchanged
    · rw [sound.keyed.jobId.eq_of_same isFound.mem hj (isFound.id_eq.trans same.symm)] at owned
      exact absurd owned other

/-- The removal is a request of `ann` for the job. -/
theorem removal_removes : plain.RemovesJob ann.id siteJob.id firstMoment removal :=
  ⟨rfl, ⟨"00000000-0000-0000-0000-000000000003".toList, by decide +kernel,
    Http.pathId_eq_ok_iff.mpr (by decide +kernel)⟩, ann_known rfl⟩

theorem job_removal_site :
    siteStore.Constrained ∧ (siteStore.withoutJob siteJob.id).Constrained ∧
      plain.RemovesJob ann.id siteJob.id firstMoment removal ∧
        plain.JobRemoved siteJob.id firstMoment removal siteStore ∧
          (plain.handle firstMoment removal (siteStore.withoutJob siteJob.id)).1.status = 404 := by
  have answered : (plain.handle firstMoment removal siteStore).1.status = 200 := by
    rw [(handle_of_asked (asked?_removeJob_iff.mpr removal_removes)).2]
    rfl
  have holds := siteStore_sound.constrained
  have removed := (job_removal plain siteStore holds ann.id siteJob.id firstMoment removal
    removal_removes).1 answered
  have holds' : (siteStore.withoutJob siteJob.id).Constrained := by
    rw [← removed.store]
    exact (plain.handle_sound firstMoment removal siteStore_sound).constrained
  have again := (job_removal plain _ holds' ann.id siteJob.id firstMoment removal
    removal_removes).2.1 (by decide)
  exact ⟨holds, holds', removal_removes, removed, again.2 rfl⟩

def ancientJob : Hiring.Job :=
  { siteJob with
    status := .opened
    clientId := bob.id
    freelancerId := none
    createdAt := .minusInfinity }

def ancientStore : Store :=
  { Store.empty with
    users := [ann, bob]
    jobs := [ancientJob] }

theorem ancientStore_sound : ancientStore.Sound :=
  Store.addJob_sound (j := ancientJob) annAndBob_sound rfl

/-- Not every request for somebody else's job is answered with 403. -/
theorem ancient_job_not_forbidden :
    ancientStore.Constrained ∧ plain.RemovesJob ann.id ancientJob.id firstMoment removal ∧
      firstMoment.connected = true ∧ ancientJob ∈ ancientStore.jobs ∧
        ancientJob.clientId ≠ ann.id ∧
          (plain.handle firstMoment removal ancientStore).1.status = 500 := by
  have other : ancientJob.clientId ≠ ann.id := by decide
  have answered := removal_removes.of_other (s := ancientStore) (j := ancientJob) rfl rfl other
  rw [if_neg (by decide)] at answered
  exact ⟨ancientStore_sound.constrained, removal_removes, rfl, List.mem_cons_self, other, answered⟩

end Server

end GigBoard
