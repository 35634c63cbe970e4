import GigBoard.Proofs.Pages

/-!
# Lists that gain a row

When a row is added to a table, each list of the rows with some property either stays as it is or has
one row more; and where the new row is later than all others, it stands in front of them.  `ListGains`
says this of the answers to the questions for such a list.
-/

set_option autoImplicit false

namespace GigBoard

open Http (Request Response)
open Rows (Unique)
open Store (Newer newestPassing)

variable {s s' : Store}

/-! ## Rows of a table that gains one -/

namespace Store

variable {α : Type} {time : α → Timestamp} {id : α → Uuid} {table : List α} {test : α → Bool} {a : α}

theorem length_newestPassing_append (passes : test a = true) :
    (newestPassing time id test (table ++ [a])).length =
      (newestPassing time id test table).length + 1 := by
  rw [length_newestPassing, length_newestPassing, List.countP_append, List.countP_singleton,
    if_pos passes]

/-- A row that fails the test changes nothing. -/
theorem newestPassing_append_of_fails (fails : test a = false) :
    newestPassing time id test (table ++ [a]) = newestPassing time id test table := by
  rw [newestPassing, newestPassing, List.filter_append, List.filter_cons_of_neg (by simp [fails]),
    List.filter_nil, List.append_nil]

/-- A row that is later than all others comes first. -/
theorem newestPassing_append_of_latest (unique : Unique id (table ++ [a])) (passes : test a = true)
    (latest : ∀ q ∈ table, time q < time a) :
    newestPassing time id test (table ++ [a]) = a :: newestPassing time id test table := by
  have before : Unique id table := by
    have apart : ((table ++ [a]).map id).Nodup := unique
    rw [List.map_append, List.nodup_append] at apart
    exact apart.1
  -- Both sides hold the same rows with the newest first, and only one list does.
  refine eq_of_newer (newestFirst_sorted (unique.filter test)) ?_ fun q => ?_
  · refine List.pairwise_cons.mpr ⟨fun q hq => ?_, newestFirst_sorted (before.filter test)⟩
    exact .inl (latest q (mem_newestPassing.mp hq).1)
  · rw [mem_newestPassing, List.mem_cons, mem_newestPassing, List.mem_append, List.mem_singleton]
    constructor
    · rintro ⟨hq | rfl, passed⟩
      · exact .inr ⟨hq, passed⟩
      · exact .inl rfl
    · rintro (rfl | ⟨hq, passed⟩)
      · exact ⟨.inr rfl, passes⟩
      · exact ⟨.inl hq, passed⟩

end Store

/-- The first page begins with the first of all rows. -/
theorem Page.Proper.head?_slice {α : Type} {p : Page} (proper : p.Proper) (first : p.page = 1)
    (rows : List α) : (p.slice rows).head? = rows.head? := by
  have least := proper.least
  have begins : ((p.page - 1) * p.limit).toNat = 0 := by
    rw [first, Int.sub_self, Int.zero_mul, Int.toNat_zero]
  have some : (p.page * p.limit).toNat ≠ 0 := by
    rw [first, Int.one_mul]
    omega
  rw [slice, begins, List.drop_zero, List.head?_take, if_neg some]

/-! ## What answers tell of a list -/

def Http.Response.total (response : Response) : Option Int :=
  match response.body.bind (·.member? "total") with
  | some (.integer n) => some n
  | _ => none

namespace Server

variable {server : Server} {α β : Type} {asks : Context → Request → Prop} {item : β → Json}
  {row : β → α}

/-- Each of some questions that is answered is told the same number of rows. -/
def Totals (server : Server) (s : Store) (asks : Context → Request → Prop) (n : Nat) : Prop :=
  ∀ ctx r, asks ctx r → (server.handle ctx r s).1.status = 200 →
    (server.handle ctx r s).1.total = some (n : Int)

/-- Each of some questions for the first page that is answered is shown a row before all others. -/
def ShowsFirst (server : Server) (s : Store) (asks : Context → Request → Prop) (item : β → Json)
    (row : β → α) (a : α) : Prop :=
  ∀ ctx r, asks ctx r → r.page.page = 1 → (server.handle ctx r s).1.status = 200 →
    ∃ v, row v = a ∧ (server.handle ctx r s).1.rows.head? = some (item v)

/-- Each of some questions that comes to a call is answered while the store can be reached. -/
def Answers (server : Server) (s : Store) (asks : Context → Request → Prop) : Prop :=
  ∀ ctx r, asks ctx r → ctx.connected = true → server.asked? ctx.now r ≠ none →
    (server.handle ctx r s).1.status = 200

/-- From one store to another a list gains a row, which comes first if it is the latest. -/
structure ListGains (server : Server) (s s' : Store) (asks : Context → Request → Prop)
    (item : β → Json) (row : β → α) (a : α) (latest : Prop) : Prop where
  total : ∃ n, server.Totals s asks n ∧ server.Totals s' asks (n + 1)
  first : latest → server.ShowsFirst s' asks item row a
  answers : s.Readable → s'.FewerThan (2 ^ 62) → server.Answers s asks ∧ server.Answers s' asks

section Listed

variable {rows : List α} {act : PageQuery → Action (Listing β)} {possible : Prop}

theorem ListedBy.totals (listed : server.ListedBy s asks item row rows act possible) :
    server.Totals s asks rows.length := by
  intro ctx r isAsked answered
  obtain ⟨_, listing, body, one⟩ := listed.shown isAsked answered
  rw [Response.total, body, ← one.total]
  rfl

theorem ListedBy.showsFirst {a : α}
    (listed : server.ListedBy s asks item row (a :: rows) act possible) :
    server.ShowsFirst s asks item row a := by
  intro ctx r isAsked first answered
  obtain ⟨_, listing, body, one⟩ := listed.shown isAsked answered
  have proper : r.page.Proper := PageQuery.resolve_proper _
  have leads : (listing.data.map row).head? = some a := by
    rw [one.data, proper.head?_slice first, List.head?_cons]
  rw [List.head?_map] at leads
  obtain ⟨v, isFirst, shows⟩ := Option.map_eq_some_iff.mp leads
  refine ⟨v, shows, ?_⟩
  rw [Response.rows_of_listing body, List.head?_map, isFirst, Option.map_some]

theorem ListedBy.answers (listed : server.ListedBy s asks item row rows act possible)
    (succeeds : ∀ ctx q, ctx.connected = true → (act q).Succeeds ctx s) : server.Answers s asks :=
  fun ctx _ isAsked connected comes =>
    listed.answered (fun q => succeeds ctx q connected) isAsked comes

variable {time : α → Timestamp} {id : α → Uuid} {table : List α} {test : α → Bool} {a : α}
  {possible' : Prop}

/-- A list of the rows of a table that pass a test gains a row that is added and passes. -/
theorem ListGains.of_append
    (before : server.ListedBy s asks item row (newestPassing time id test table) act possible)
    (after : server.ListedBy s' asks item row (newestPassing time id test (table ++ [a])) act
      possible')
    (unique : Unique id (table ++ [a])) (passes : test a = true)
    (succeeds : s.Readable → s'.FewerThan (2 ^ 62) → ∀ ctx q, ctx.connected = true →
      (act q).Succeeds ctx s ∧ (act q).Succeeds ctx s') :
    server.ListGains s s' asks item row a (∀ q ∈ table, time q < time a) where
  total := by
    refine ⟨_, before.totals, ?_⟩
    rw [← Store.length_newestPassing_append passes]
    exact after.totals
  first latest := by
    rw [Store.newestPassing_append_of_latest unique passes latest] at after
    exact after.showsFirst
  answers readable few :=
    ⟨before.answers fun ctx q connected => (succeeds readable few ctx q connected).1,
      after.answers fun ctx q connected => (succeeds readable few ctx q connected).2⟩

end Listed

end Server

end GigBoard
