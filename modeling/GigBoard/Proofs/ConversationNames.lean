import GigBoard.Proofs.Conversations
import GigBoard.Proofs.Encodings
import GigBoard.Proofs.Folding

/-!
# The names of conversations

A conversation is named by the identifier of the other user and, behind a hyphen, that of the job, or
a word that stands for no job.  The identifiers have hyphens themselves, but all their written forms
are of one length, so that a name is taken apart in one way only.  Hence the entries that an inbox
shows are told apart by their names.
-/

set_option autoImplicit false

namespace GigBoard

open Http (Request Resource)

namespace Messaging

open Account (User)

variable {caller other : Uuid} {job : Option Uuid} {ctx : Context} {s : Store}

namespace ConversationKey

def ending (job : Option Uuid) : List Char := (job.map (·.text.toList)).getD "no-job".toList

theorem toList_text (key : ConversationKey) :
    key.text.toList = key.counterpartId.text.toList ++ '-' :: ending key.jobId := by
  unfold text ending
  cases key.jobId <;> simp

/-- The word for no job is too short for an identifier. -/
theorem ending_injective : Function.Injective ending := by
  intro a b same
  have lengths := congrArg List.length same
  cases a with
  | none =>
      cases b with
      | none => rfl
      | some j => simp [ending, j.length_text] at lengths
  | some i =>
      cases b with
      | none => simp [ending, i.length_text] at lengths
      | some j => rw [Uuid.text_injective (String.toList_inj.mp same)]

/-- The written forms of identifiers have one length, so the hyphen behind the first is found again. -/
theorem text_injective : Function.Injective text := by
  intro a b same
  have written := congrArg String.toList same
  rw [toList_text, toList_text] at written
  have lengths : a.counterpartId.text.toList.length = b.counterpartId.text.toList.length := by
    rw [Uuid.length_text, Uuid.length_text]
  obtain ⟨sameUser, sameRest⟩ := List.append_inj written lengths
  have counterpart := Uuid.text_injective (String.toList_inj.mp sameUser)
  have job := ending_injective (List.cons.inj sameRest).2
  obtain ⟨_, _⟩ := a
  obtain ⟨_, _⟩ := b
  exact congr (congrArg mk counterpart) job

end ConversationKey

/-- No two conversations of a history have one name, because no two have one key. -/
theorem unique_names (caller : Uuid) (history : List Message) :
    Rows.Unique (·.key.text) (Conversation.group caller history) :=
  (group_groups caller history).keys.named ConversationKey.text_injective

/-! ## The names that are shown -/

theorem ConversationView.id_of_make {users : List User} {titles : List (Uuid × String)}
    {c : Conversation} {v : ConversationView} (made : make users titles c = .ok v) :
    c.key.text = v.id := by
  obtain ⟨other, _, made⟩ := bind_ok made
  obtain ⟨last, _, made⟩ := bind_ok made
  obtain rfl := Except.ok.inj made
  rfl

theorem loadConversations_names (caller : Uuid) :
    (loadConversations caller).Ensures ctx s fun views _ =>
      views.map ConversationView.id =
        (Conversation.group caller (historyOf s caller)).map (·.key.text) := by
  refine .query fun messages selected => .query fun users _ => .query fun titles _ => ?_
  refine .ofExcept_last fun views made => ?_
  have isHistory : messages = historyOf s caller := Store.readRows_ok selected
  rw [isHistory] at made
  exact (Rows.map_eq_of_forall₂ (mapM_eq_ok_iff.mp made)
    fun _ _ => ConversationView.id_of_make).symm

theorem unique_threadOf (unique : Rows.Unique Message.id s.messages) :
    Rows.Unique Message.id (threadOf s caller other job) :=
  ((Store.perm_oldestFirst _).map Message.id).nodup_iff.mpr (unique.filter _)

end Messaging

/-- Some values are objects that are told apart by the texts at `id`. -/
def Json.NamedApart (entries : List Json) : Prop :=
  ∃ names : List String,
    entries.map (·.member? "id") = names.map (fun name => some (.string name)) ∧ names.Nodup

theorem Json.namedApart_map {α : Type} {item : α → Json} {name : α → String} {values : List α}
    (shown : ∀ v, (item v).member? "id" = some (.string (name v)))
    (apart : Rows.Unique name values) : NamedApart (values.map item) := by
  refine ⟨values.map name, ?_, apart⟩
  rw [List.map_map, List.map_map]
  exact List.map_congr_left fun v _ => shown v

namespace Server

open Messaging (Conversation ConversationKey ConversationView Message MessageView)

variable {server : Server} {ctx : Context} {r : Request} {s : Store} {caller other : Uuid}
  {participant job : Option Uuid} {entries : List Json}

/-- Who gets a list at the place of the inbox has asked for the inbox. -/
theorem asksInbox_of_listed (isGet : r.method = .get)
    (path : Resource.ofPath? r.path = some .messages)
    (listed : (server.handle ctx r s).1.body = some (.array entries)) :
    (∃ caller participant job, server.AsksInbox caller participant job ctx r) ∧
      (server.handle ctx r s).1.status = 200 := by
  rcases server.answered_or_refused isGet (s := s) with
    ⟨call, answer, s', asked, ended, status, _⟩ | ⟨_, refused⟩
  · have made := Option.some.inj (callFor?_of_asked isGet path asked)
    obtain ⟨who, _, made⟩ := bind_ok made
    obtain ⟨participant, isParticipant, made⟩ := bind_ok made
    obtain ⟨job, isJob, made⟩ := bind_ok made
    cases made
    obtain ⟨view, _, rfl⟩ := Call.answering_result ended
    have isCaller := caller?_of_asked asked rfl
    exact ⟨⟨who.userId, participant, job, isGet, path, isCaller, isParticipant, isJob⟩, status⟩
  · exact absurd listed (refused entries)

theorem AsksInbox.conversations_apart (asks : server.AsksInbox caller none job ctx r)
    (answered : (server.handle ctx r s).1.status = 200) :
    ∃ views, (server.handle ctx r s).1.Lists ConversationView.toJson views ∧
      Rows.Unique ConversationView.id views := by
  obtain ⟨views, lists, loaded⟩ := asks.loads_conversations answered
  refine ⟨views, lists, ?_⟩
  rw [Rows.Unique, Messaging.loadConversations_names caller views s loaded]
  exact Messaging.unique_names caller _

theorem AsksInbox.thread_apart (asks : server.AsksInbox caller (some other) job ctx r)
    (answered : (server.handle ctx r s).1.status = 200)
    (unique : Rows.Unique Message.id s.messages) :
    ∃ views, (server.handle ctx r s).1.Lists MessageView.toJson views ∧
      Rows.Unique (·.id.text) views := by
  obtain ⟨views, lists, loaded⟩ := asks.loads_thread answered
  refine ⟨views, lists, ?_⟩
  obtain ⟨rows, _⟩ := Messaging.loadThread_ensures caller other job views s loaded
  have ids : Rows.Unique Message.id (views.map MessageView.row) := by
    rw [rows]
    exact Messaging.unique_threadOf unique
  rw [Rows.Unique, List.map_map] at ids
  have shownIds : Rows.Unique MessageView.id views := ids
  exact shownIds.named Uuid.text_injective

/-- A name belongs to one conversation: to one key, to one of the conversations of a history, and to
one of those that an answer shows.  The messages of a thread are told apart in the same way if the
store keeps their identifiers apart. -/
theorem conversations_named_apart :
    (∀ k₁ k₂ : ConversationKey, k₁.text = k₂.text → k₁ = k₂) ∧
    (∀ caller history, ((Conversation.group caller history).map (·.key.text)).Nodup) ∧
    ∀ (server : Server) (ctx : Context) (r : Request) (s : Store) (entries : List Json),
      r.method = .get → Resource.ofPath? r.path = some .messages →
      (server.handle ctx r s).1.body = some (.array entries) →
      Http.queryId (Text.Form.pairs r.query) "participantId" = .ok none ∨
        Rows.Unique Message.id s.messages →
      Json.NamedApart entries := by
  refine ⟨fun k₁ k₂ same => ConversationKey.text_injective same, Messaging.unique_names, ?_⟩
  intro server ctx r s entries isGet path listed kept
  obtain ⟨⟨caller, participant, job, asks⟩, answered⟩ := asksInbox_of_listed isGet path listed
  cases participant with
  | none =>
      obtain ⟨views, lists, apart⟩ := asks.conversations_apart answered
      cases listed.symm.trans lists.2
      exact Json.namedApart_map (fun _ => rfl) apart
  | some other =>
      have unique : Rows.Unique Message.id s.messages := by
        refine kept.resolve_left fun noParticipant => ?_
        rw [asks.participant] at noParticipant
        cases noParticipant
      obtain ⟨views, lists, apart⟩ := asks.thread_apart answered unique
      cases listed.symm.trans lists.2
      exact Json.namedApart_map (fun _ => rfl) apart

def annsThanks : Message := ⟨.ofNat 8, ann.id, bob.id, none, "Thanks", false, ⟨1⟩⟩

def thankedStore : Store := { siteStore with messages := [siteMessage, annsThanks] }

theorem thankedStore_sound : thankedStore.Sound :=
  Store.addMessage_sound (m := annsThanks) siteStore_sound rfl

theorem conversations_named_apart_site :
    ConversationKey.mk bob.id none = .ofMessage ann.id annsThanks ∧
    ∃ v w, (plain.handle firstMoment annInbox thankedStore).1.Lists ConversationView.toJson [v, w] ∧
      Json.NamedApart [v.toJson, w.toJson] := by
  obtain ⟨keys, _, answers⟩ := conversations_named_apart
  have asks := annInbox_asks
  have readable : thankedStore.Readable := by constructor <;> decide
  have answered := asks.answered thankedStore_sound readable rfl
  obtain ⟨views, lists, loaded⟩ := asks.loads_conversations answered
  have two : views.length = 2 := by
    have named := Messaging.loadConversations_names ann.id views thankedStore loaded
    have history : (Messaging.historyOf thankedStore ann.id).Perm thankedStore.messages :=
      Store.perm_newestFirst _
    have counted : (Conversation.group ann.id (Messaging.historyOf thankedStore ann.id)).length =
        (Conversation.group ann.id thankedStore.messages).length := by
      simpa using (Messaging.tallies_perm history).length_eq
    have sameCount := congrArg List.length named
    rw [List.length_map, List.length_map] at sameCount
    rw [sameCount, counted]
    decide +kernel
  obtain ⟨v, w, rfl⟩ := List.length_eq_two.mp two
  refine ⟨keys _ _ rfl, v, w, lists, ?_⟩
  exact answers plain firstMoment annInbox thankedStore [v.toJson, w.toJson] rfl asks.path lists.2
    (.inl rfl)

end Server

end GigBoard
