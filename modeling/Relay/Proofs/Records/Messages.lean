import Relay.Proofs.Search.Listing

/-!
# Listings of inboxes

If the dates of a client's inbox can be read, the listing holds each of its entries once.
-/

namespace Relay

/-- An entry with the date that calendar and clock show. -/
def Message.shown (m : Message) : Message := { m with date := m.date.shown }

theorem Message.shown_of_regular {m : Message} (regular : m.date.Regular) : m.shown = m := by
  rw [shown, Instant.shown_of_regular regular]

namespace Records

variable {r : Records} {client : String}

theorem readMessage_eq_ok_iff {row : (String × String) × MessageRow} {m : Message} :
    readMessage row = .ok m ↔
      row.1 = (m.id, m.client) ∧ row.2 = ⟨m.peer, m.date.storedText⟩ ∧ m.date.ReadsBack := by
  obtain ⟨⟨id, client⟩, ⟨peer, date⟩⟩ := row
  obtain ⟨id', peer', client', date'⟩ := m
  have stored : Instant.readStored? date = some date' ↔
      date'.ReadsBack ∧ date = date'.storedText := Instant.readStored?_eq_some_iff
  simp only [readMessage, readDate, bind, Except.bind, pure, Except.pure, Prod.mk.injEq,
    MessageRow.mk.injEq]
  cases read : Instant.readStored? date with
  | none =>
    rw [read] at stored
    constructor
    · intro h
      cases h
    · rintro ⟨-, ⟨-, text⟩, dated⟩
      cases stored.2 ⟨dated, text⟩
  | some t =>
    rw [read, Option.some.injEq] at stored
    simp only [Except.ok.injEq, Message.mk.injEq]
    constructor
    · rintro ⟨rfl, rfl, rfl, same⟩
      obtain ⟨dated, text⟩ := stored.1 same
      exact ⟨⟨rfl, rfl⟩, ⟨rfl, text⟩, dated⟩
    · rintro ⟨⟨rfl, rfl⟩, ⟨rfl, text⟩, dated⟩
      exact ⟨rfl, rfl, rfl, stored.2 ⟨dated, text⟩⟩

theorem mem_messageRows {row : (String × String) × MessageRow} :
    row ∈ r.messageRows client ↔ r.messages.get? row.1 = some row.2 ∧ row.1.2 = client := by
  rw [messageRows, List.mem_mergeSort, List.mem_filter, Table.mem_entries_iff, beq_iff_eq]

theorem pairwise_messageRows (r : Records) (client : String) :
    (r.messageRows client).Pairwise fun a b => a.1.1 ≠ b.1.1 := by
  have keys : (r.messageRows client).Pairwise fun a b => a.1 ≠ b.1 := by
    have nodup := List.pairwise_map.1 r.messages.nodup
    refine (List.Perm.pairwise_iff ?_ (List.mergeSort_perm _ _)).2 (nodup.filter _)
    intro a b ne same
    exact ne same.symm
  refine keys.imp_of_mem ?_
  intro a b ha hb ne same
  have ha := (mem_messageRows.1 ha).2
  have hb := (mem_messageRows.1 hb).2
  exact ne (Prod.ext same (ha.trans hb.symm))

theorem messagesOf_eq_ok
    (readable : ∀ id row, r.messages.get? (id, client) = some row →
      ∃ date : Instant, date.ReadsBack ∧ row.date = date.storedText) :
    ∃ ms, r.messagesOf client = .ok ms ∧ (ms.map Message.id).Nodup ∧
      ∀ m : Message, m ∈ ms ↔ m.client = client ∧ m.date.ReadsBack ∧
        r.messages.get? (m.id, client) = some ⟨m.peer, m.date.storedText⟩ := by
  have all : ∀ row ∈ r.messageRows client, ∃ m, readMessage row = .ok m := by
    rintro ⟨⟨id, client'⟩, ⟨peer, text⟩⟩ mem
    obtain ⟨found, rfl⟩ := mem_messageRows.1 mem
    obtain ⟨date, dated, rfl⟩ := readable id _ found
    exact ⟨⟨id, peer, client', date⟩, readMessage_eq_ok_iff.2 ⟨rfl, rfl, dated⟩⟩
  obtain ⟨ms, listed⟩ := exists_mapM_eq_ok all
  have rows := mapM_eq_ok_iff.1 listed
  refine ⟨ms, listed, ?_, fun m => ?_⟩
  · have apart : ((r.messageRows client).map readMessage).Pairwise fun x y =>
        ∀ m m', x = .ok m → y = .ok m' → m.id ≠ m'.id := by
      refine List.pairwise_map.2 ((pairwise_messageRows r client).imp ?_)
      intro a b ne m m' hm hm' same
      have hm := (readMessage_eq_ok_iff.1 hm).1
      have hm' := (readMessage_eq_ok_iff.1 hm').1
      exact ne (by rw [hm, hm', same])
    rw [rows] at apart
    refine List.pairwise_map.2 ((List.pairwise_map.1 apart).imp ?_)
    intro m m' ne
    exact ne m m' rfl rfl
  · have mem : m ∈ ms ↔ ∃ row ∈ r.messageRows client, readMessage row = .ok m := by
      rw [← List.mem_map, rows]
      simp
    rw [mem]
    constructor
    · rintro ⟨row, mem, read⟩
      obtain ⟨found, own⟩ := mem_messageRows.1 mem
      obtain ⟨key, value, dated⟩ := readMessage_eq_ok_iff.1 read
      rw [key] at own
      rw [key, value] at found
      obtain rfl : m.client = client := own
      exact ⟨rfl, dated, found⟩
    · rintro ⟨rfl, dated, found⟩
      exact ⟨((m.id, m.client), ⟨m.peer, m.date.storedText⟩), mem_messageRows.2 ⟨found, rfl⟩,
        readMessage_eq_ok_iff.2 ⟨rfl, rfl, dated⟩⟩

end Records

end Relay
