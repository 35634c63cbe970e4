import GigBoard.Proofs.Service

/-!
# Requests that fail

A request that is answered with an error leaves no trace in the store, and neither does a question,
whatever the answer; only the opening of a thread marks messages.
-/

set_option autoImplicit false

namespace GigBoard.Server

open GigBoard.Action (Ordinary)
open Http (Request Resource)

variable {server : Server} {ctx : Context} {r : Request} {s : Store}

theorem perform_status_of_ok {call : Call} {answer : Answer} {s' : Store}
    (ok : call.perform ctx s = (.ok answer, s')) :
    (perform call ctx s).1.answer.status = answer.status := by
  unfold perform
  rw [ok]

/-- A request that makes a call and is answered with an error was refused by the call, which left the
store alone. -/
theorem store_eq_of_status {call : Call} (ordinary : Ordinary ctx s)
    (asked : server.asked? ctx.now r = some call)
    (failed : 400 ≤ (server.handle ctx r s).1.status) : (server.handle ctx r s).2 = s := by
  obtain ⟨store, status⟩ := handle_of_asked (s := s) asked
  rw [store]
  rcases ended : call.perform ctx s with ⟨f | answer, s'⟩
  · exact Call.perform_failed ordinary ended
  · rw [status, perform_status_of_ok ended] at failed
    have success := Call.perform_status ended
    omega

theorem verb_of_question (question : r.method = .get ∨ r.method = .head) :
    Resource.Verb.ofMethod? r.method = some .read := by
  rcases question with isGet | isHead
  · rw [isGet]
    rfl
  · rw [isHead]
    rfl

/-- A question other than the opening of a thread comes to a call that only asks. -/
theorem asks_of_question {call : Call} {now : Timestamp}
    (question : r.method = .get ∨ r.method = .head)
    (noThread : ∀ id, Resource.ofPath? r.path ≠ some (.thread id))
    (asked : server.asked? now r = some call) : call.asks = true := by
  obtain ⟨resource, verb, isPath, isVerb, fits⟩ := asked?_fits asked
  rw [verb_of_question question] at isVerb
  rcases fits.reading (Option.some.inj isVerb).symm with asks | ⟨id, isThread⟩
  · exact asks
  · rw [isThread] at isPath
    exact absurd isPath (noThread id)

/-- In a store that satisfies its constraints, requests that fail and questions change nothing. -/
theorem failures_and_questions_change_nothing (server : Server) (ctx : Context) (r : Request)
    (s : Store) (sound : s.Sound) (readable : s.Readable)
    (timely : ctx.now.isRepresentable = true) :
    (400 ≤ (server.handle ctx r s).1.status → (server.handle ctx r s).2 = s) ∧
      (r.method = .get ∨ r.method = .head →
        (∀ id, Resource.ofPath? r.path ≠ some (.thread id)) →
          (server.handle ctx r s).2 = s) := by
  cases asked : server.asked? ctx.now r with
  | none =>
      have same := handle_of_not_asked (s := s) asked
      exact ⟨fun _ => same, fun _ _ => same⟩
  | some call =>
      constructor
      · intro failed
        exact store_eq_of_status ⟨sound, readable, timely⟩ asked failed
      · intro question noThread
        have asks := asks_of_question question noThread asked
        rw [(handle_of_asked asked).1]
        exact Call.perform_readOnly asks ctx s

/-! ## A wallet that is registered again -/

def ann : Account.User where
  id := .ofNat 1
  walletAddress := "0xa"
  username := "ann"
  email := none
  bio := none
  avatarUrl := none
  role := .client
  createdAt := ⟨0⟩
  updatedAt := ⟨0⟩

def annAlone : Store := { Store.empty with users := [ann] }

theorem ann_added : Store.addUser ann .empty = .ok ((), annAlone) := by rfl

/-- A registration with the wallet of `ann` under another name. -/
def secondName : Request where
  method := .post
  target := "/api/users"
  headers := [("content-type", "application/json")]
  body := Text.Utf8.ofString
    "\x7b\"walletAddress\":\"0xA\",\"username\":\"bob\",\"role\":\"CLIENT\"\x7d"

/-- The circumstances of the example: the first moment of 1970. -/
def firstMoment : Context := ⟨true, ⟨0⟩, fun n => .ofNat (n + 2)⟩

def plain : Server := ⟨⟨"secret", "issuer", "audience", 3600⟩, .all⟩

theorem repeated_registration_changes_nothing :
    annAlone.Sound ∧ annAlone.Readable ∧
      (plain.handle firstMoment secondName annAlone).1.status = 409 ∧
        (plain.handle firstMoment secondName annAlone).2 = annAlone := by
  have sound : annAlone.Sound := Store.addUser_sound Store.empty_sound ann_added
  have readable : annAlone.Readable :=
    Store.addUser_readable Store.empty_readable rfl ann_added
  have conflict : (plain.handle firstMoment secondName annAlone).1.status = 409 := by
    decide +kernel
  have unchanged := failures_and_questions_change_nothing plain firstMoment secondName annAlone
    sound readable rfl
  exact ⟨sound, readable, conflict, unchanged.1 (by omega)⟩

end GigBoard.Server
