import Mathlib.Data.BitVec
import Mathlib.Data.List.Perm.Subperm
import RecordStore.Proofs.Backend.Frame

/-!
# Who has which connection

A transaction belongs to a connection, not to who has it, and a connection that is returned to the
pool is handed out again as it is. So it matters that none is returned with its transaction open,
which is the task of `Backend.abandon`. Calls go through connections that are handed out, so no
transaction is open in any other one (`Backend.IsClean`), nor in one that is handed out next
(`checkout_starts_clean`).

Connections are handed out under identities. What may become of these is said by `Turnover`: a fresh
one is added, or one is gone, or they stay as they are. So an identity that nobody has any more is
not given again (`Turnover.isRetired`).
-/

namespace RecordStore

/-! ### Identities -/

namespace ConnectionId

theorem ofNumber_injOn {m n : Nat} (hm : m < 2 ^ 128) (hn : n < 2 ^ 128)
    (h : ofNumber m = ofNumber n) : m = n := by
  have hbits := congrArg BitVec.toNat (ConnectionId.mk.inj h)
  simp only [BitVec.toNat_ofNat] at hbits
  omega

/-- While there are identities left, a fresh one is not among those that were used. -/
theorem fresh_not_mem {used : List ConnectionId} (h : used.length < 2 ^ 128) :
    fresh used ∉ used := by
  rw [fresh]
  rcases hfind : ((List.range (used.length + 1)).map ofNumber).find? (!used.contains ·) with _ | id
  · -- The candidates differ from each other, and are too many to be all among those used.
    have hnodup : ((List.range (used.length + 1)).map ofNumber).Nodup := by
      refine List.Nodup.map_on (fun m hm n hn heq => ?_) List.nodup_range
      rw [List.mem_range] at hm hn
      exact ofNumber_injOn (by omega) (by omega) heq
    have hall : ((List.range (used.length + 1)).map ofNumber) ⊆ used := fun id hid => by
      simpa using List.find?_eq_none.1 hfind id hid
    have hlength := (List.subperm_of_subset hnodup hall).length_le
    simp only [List.length_map, List.length_range] at hlength
    omega
  · simpa using List.find?_some hfind

end ConnectionId

namespace Backend

variable {d : Driver} {b b' : Backend d} {id : ConnectionId}

/-! ### Turnover -/

/-- What may become of the identities under which connections are handed out. -/
inductive Turnover (b b' : Backend d) : Prop
  | handsOut : b'.ids = .fresh b.issued :: b.ids → b'.issued = .fresh b.issued :: b.issued →
    Turnover b b'
  | takesBack (id : ConnectionId) : b'.ids = b.ids.filter (· ≠ id) → b'.issued = b.issued →
    Turnover b b'
  | keeps : b'.ids = b.ids → b'.issued = b.issued → Turnover b b'

/-- Only identities that were given are in use. -/
theorem Turnover.ids_subset_issued (h : Turnover b b') (hissued : b.ids ⊆ b.issued) :
    b'.ids ⊆ b'.issued := by
  cases h with
  | handsOut hids hissued' =>
    rw [hids, hissued']
    exact List.cons_subset_cons _ hissued
  | takesBack id hids hissued' =>
    rw [hids, hissued']
    exact fun other hother => hissued (List.mem_of_mem_filter hother)
  | keeps hids hissued' => rwa [hids, hissued']

/-- Nobody has this identity any more, unless the identities have run out. -/
def IsRetired (b : Backend d) (id : ConnectionId) : Prop :=
  b.issued.length ≤ 2 ^ 128 → id ∈ b.issued ∧ id ∉ b.ids

/-- An identity that nobody has any more is not given again. -/
theorem Turnover.isRetired (hturn : Turnover b b') (h : b.IsRetired id) : b'.IsRetired id := by
  cases hturn with
  | handsOut hids hissued =>
    intro hlength
    rw [hissued, List.length_cons] at hlength
    obtain ⟨hmem, hnot⟩ := h (by omega)
    -- Before the last identity is given, there is a fresh one.
    have hne : id ≠ .fresh b.issued := by
      rintro rfl
      exact ConnectionId.fresh_not_mem (by omega) hmem
    rw [hids, hissued]
    exact ⟨List.mem_cons_of_mem _ hmem, fun hid => (List.mem_cons.1 hid).elim hne hnot⟩
  | takesBack other hids hissued =>
    rw [IsRetired, hids, hissued]
    exact fun hlength => ⟨(h hlength).1, fun hid => (h hlength).2 (List.mem_of_mem_filter hid)⟩
  | keeps hids hissued =>
    rw [IsRetired, hids, hissued]
    exact h

/-! ### Clean connections -/

section Clean

variable {idle : d.Pool → List d.Conn}

/-- No transaction is open in a connection that is not handed out. -/
def IsClean (idle : d.Pool → List d.Conn) (b : Backend d) : Prop :=
  ∀ conn ∈ idle b.pool, d.inTransaction conn = false

theorem inTransaction_of_offers {returned : List d.Conn} {conn : d.Conn}
    (h : d.Offers returned conn) (hclean : ∀ c ∈ returned, d.inTransaction c = false) :
    d.inTransaction conn = false :=
  h.elim (hclean conn) id

theorem ofConfig_isClean (hpool : d.LendsAsReturned idle) (config : Config) (inMemory : Bool) :
    (ofConfig d config inMemory).IsClean idle := fun conn hconn =>
  inTransaction_of_offers (hpool.start config inMemory conn hconn) nofun

/-- Whatever was done in a connection, no transaction is open after it was abandoned. -/
theorem inTransaction_abandon (hrollback : d.RollsBack) (conn : d.Conn) (world : d.World) :
    d.inTransaction (abandon conn world).1 = false := by
  rw [abandon]
  split
  · next hopen =>
    obtain ⟨after, hbatch, hclosed⟩ := hrollback conn world hopen
    rwa [hbatch]
  · next hclosed => simpa using hclosed

theorem ids_giveBack (b : Backend d) (c : Checkout d) :
    (b.giveBack c).ids = b.ids.filter (· ≠ c.id) := by
  simp only [ids, giveBack, List.filter_map]
  rfl

/-- A connection that is dropped is returned without the transaction that it may have open. -/
theorem giveBack_isClean (hpool : d.LendsAsReturned idle) (hrollback : d.RollsBack)
    (h : b.IsClean idle) (c : Checkout d) : (b.giveBack c).IsClean idle := fun conn hconn =>
  inTransaction_of_offers (hpool.takeBack _ _ _ conn hconn)
    (List.forall_mem_cons.2 ⟨inTransaction_abandon hrollback c.conn b.world, h⟩)

/-- A checkout hands out a connection that the pool lends, or it fails. -/
theorem checkout_cases (b : Backend d) :
    (∃ pool world, d.lend (b.pool, b.world) = (none, pool, world) ∧
      checkout.perform b = (.error (.poolExhausted backendName), { b with pool, world })) ∨
    ∃ conn pool world, d.lend (b.pool, b.world) = (some conn, pool, world) ∧
      checkout.perform b = (.ok (.fresh b.issued), { b with
        pool, world
        handedOut := ⟨.fresh b.issued, conn⟩ :: b.handedOut
        issued := .fresh b.issued :: b.issued }) := by
  simp only [checkout, Act.perform_make]
  rcases d.lend (b.pool, b.world) with ⟨_ | conn, pool, world⟩
  · exact .inl ⟨pool, world, rfl, rfl⟩
  · exact .inr ⟨conn, pool, world, rfl, rfl⟩

theorem checkout_turnover (b : Backend d) : Turnover b (checkout.perform b).2 := by
  rcases b.checkout_cases with ⟨pool, world, -, hout⟩ | ⟨conn, pool, world, -, hout⟩ <;> rw [hout]
  · exact .keeps rfl rfl
  · exact .handsOut rfl rfl

theorem locks_checkout (b : Backend d) : (checkout.perform b).2.locks = b.locks := by
  rcases b.checkout_cases with ⟨pool, world, -, hout⟩ | ⟨conn, pool, world, -, hout⟩ <;> rw [hout]

theorem ids_subset_checkout (b : Backend d) : b.ids ⊆ (checkout.perform b).2.ids := by
  rcases b.checkout_cases with ⟨pool, world, -, hout⟩ | ⟨conn, pool, world, -, hout⟩ <;> rw [hout]
  · exact List.Subset.refl _
  · exact List.subset_cons_self _ _

theorem checkout_isClean (hpool : d.LendsAsReturned idle) (h : b.IsClean idle) :
    (checkout.perform b).2.IsClean idle := by
  have hkeeps := hpool.lendKeeps b.pool b.world
  rcases b.checkout_cases with ⟨pool, world, hlend, hout⟩ | ⟨conn, pool, world, hlend, hout⟩ <;>
    rw [hlend] at hkeeps <;> rw [hout] <;>
    exact fun conn hconn => inTransaction_of_offers (hkeeps conn hconn) h

/-- In a connection that was just handed out, no transaction is open. -/
theorem checkout_starts_clean (hpool : d.LendsAsReturned idle) (h : b.IsClean idle)
    (hout : checkout.perform b = (.ok id, b')) :
    ∃ conn, b'.conn? id = some conn ∧ d.inTransaction conn = false := by
  have hoffers := hpool.lend b.pool b.world
  rcases b.checkout_cases with ⟨pool, world, -, hfails⟩ | ⟨conn, pool, world, hlend, hout'⟩
  · rw [hout] at hfails
    cases hfails
  · rw [hout] at hout'
    cases hout'
    rw [hlend] at hoffers
    exact ⟨conn, by simp [conn?], inTransaction_of_offers (hoffers conn rfl) h⟩

end Clean

end Backend

end RecordStore
