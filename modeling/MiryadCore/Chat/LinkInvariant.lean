import MiryadCore.Chat.LinkTrace

/-!
# The invariant of the link codes

A code is inserted once and erased by one commit at most, and a Matrix
identifier has one link.  A subject has no more live codes than it may as long
as the insertions that another one has overtaken find room.
-/

namespace MiryadCore.Chat

open Interactive

/-- The row has been inserted. -/
def Inserted (row : LinkCode) (trace : Trace) : Prop :=
  ∃ passage ∈ trace, passage.adds = some row

/-- A commit erases the code. -/
def Passage.Spends (passage : Passage) (codeHash : String) : Prop :=
  ∃ tx, passage.commits = some tx ∧
    { tx, change := .erased codeHash } ∈ passage.before.writes

/-- No code is drawn twice. -/
def Fresh (earlier : Trace) (passage : Passage) : Prop :=
  ∀ code, passage.draws = some code →
    ∀ past ∈ earlier, past.draws ≠ some code

/-- An instant that none carried by a request is after. -/
def Clock (now : Instant) (trace : Trace) : Prop :=
  ∀ passage ∈ trace, ∀ instant, passage.instant = some instant → instant ≤ now

/-- Since the task has looked for the codes of the subject, one was added. -/
def overtaken (task : ℕ) (subject : String) : Trace → Bool
  | [] => false
  | passage :: earlier =>
      if passage.task = task ∧ passage.lists = true then false
      else if passage.adds.any fun row => row.subject = subject then true
      else overtaken task subject earlier

/-- An insertion that was overtaken finds less live codes than there may be, as
long as its own is live. -/
def Room (earlier : Trace) (passage : Passage) : Prop :=
  ∀ row, passage.adds = some row →
    overtaken passage.task row.subject earlier = true →
    ∀ now, Clock now earlier → now < row.expiresAt →
      (passage.before.live row.subject now).length < MAX_LIVE_CODES

/-- A subject has no more live codes than it may. -/
def Capped (s : Directory) (trace : Trace) : Prop :=
  ∀ subject now, Clock now trace →
    (s.live subject now).length ≤ MAX_LIVE_CODES

section Trace

variable {trace : Trace} {passage past : Passage} {row : LinkCode}

theorem Inserted.later (inserted : Inserted row trace) :
    Inserted row (passage :: trace) := by
  obtain ⟨past, member, adds⟩ := inserted
  exact ⟨past, List.mem_cons_of_mem passage member, adds⟩

theorem Clock.earlier {now : Instant} (clock : Clock now (passage :: trace)) :
    Clock now trace :=
  fun past member => clock past (List.mem_cons_of_mem passage member)

theorem mem_of_told {α : Type} {told : Passage → Option α} {value : α}
    (silent : told passage = none) (member : past ∈ passage :: trace)
    (tells : told past = some value) : past ∈ trace := by
  rcases List.mem_cons.mp member with same | earlier
  · rw [same, silent] at tells
    cases tells
  · exact earlier

theorem task_of_draws (fresh : Throughout Fresh trace) {code : String}
    (member : passage ∈ trace) (other : past ∈ trace)
    (draws : passage.draws = some code) (again : past.draws = some code) :
    passage.task = past.task := by
  induction trace with
  | nil => cases member
  | cons latest earlier induction =>
      rcases List.mem_cons.mp member with same | before
      · subst same
        rcases List.mem_cons.mp other with same | otherBefore
        · rw [same]
        · exact absurd again (fresh.1 code draws past otherBefore)
      · rcases List.mem_cons.mp other with same | otherBefore
        · subst same
          exact absurd draws (fresh.1 code again passage before)
        · exact induction fresh.2 before otherBefore

end Trace

theorem digitChar_injective {one other : ℕ} (below : one < 16)
    (otherBelow : other < 16)
    (same : Nat.digitChar one = Nat.digitChar other) : one = other := by
  have all : ∀ one other : Fin 16,
      Nat.digitChar one = Nat.digitChar other → one = other := by decide
  exact Fin.mk.inj (all ⟨one, below⟩ ⟨other, otherBelow⟩ same)

theorem hexByte_injective {one other : UInt8}
    (same : hexByte one = hexByte other) : one = other := by
  unfold hexByte at same
  simp only [List.cons.injEq, and_true] at same
  have bound := one.toNat_lt
  have otherBound := other.toNat_lt
  have high : one.toNat / 16 = other.toNat / 16 :=
    digitChar_injective (by omega) (by omega) same.1
  have low : one.toNat % 16 = other.toNat % 16 :=
    digitChar_injective (by omega) (by omega) same.2
  apply UInt8.toNat_inj.mp
  omega

theorem flatMap_hexByte_injective (bytes others : List UInt8)
    (same : bytes.flatMap hexByte = others.flatMap hexByte) :
    bytes = others := by
  induction bytes generalizing others with
  | nil =>
      cases others with
      | nil => rfl
      | cons other others => simp [hexByte] at same
  | cons byte bytes induction =>
      cases others with
      | nil => simp [hexByte] at same
      | cons other others =>
          simp only [List.flatMap_cons] at same
          obtain ⟨first, rest⟩ := List.append_inj same rfl
          rw [hexByte_injective first, induction others rest]

theorem randomCode_of_hashCode {sha : Sha256} {bytes others : Vector UInt8 12}
    (same : hashCode sha (randomCode bytes) = hashCode sha (randomCode others)) :
    randomCode bytes = randomCode others :=
  sha.distinct (flatMap_hexByte_injective _ _ (String.ofList_injective same))

/-- What a pending change locks. -/
def Change.key : Change → String ⊕ String
  | .erased codeHash => .inl codeHash
  | .linked link => .inr link.mxid

/-- What holds of the tables after the passages of a trace. -/
structure Good (s : Directory) (trace : Trace) : Prop where
  codes : ∀ {row}, row ∈ s.codes → Inserted row trace
  unique : (s.codes.map LinkCode.codeHash).Nodup
  once : ∀ {passage past row other}, passage ∈ trace → past ∈ trace →
    passage.adds = some row → past.adds = some other →
    row.codeHash = other.codeHash → passage.task = past.task ∧ row = other
  begun : ∀ {passage tx}, passage ∈ trace → passage.begins = some tx →
    tx < s.transactions
  begunOnce : ∀ {passage past tx}, passage ∈ trace → past ∈ trace →
    passage.begins = some tx → past.begins = some tx →
    passage.task = past.task
  older : ∀ {write}, write ∈ s.writes → write.tx < s.transactions
  locks : (s.writes.map fun write => write.change.key).Nodup
  spent : ∀ {passage codeHash}, passage ∈ trace → passage.Spends codeHash →
    codeHash ∉ s.codes.map LinkCode.codeHash ∧
      ∃ row, Inserted row trace ∧ row.codeHash = codeHash
  spentOnce : ∀ {passage past codeHash}, passage ∈ trace → past ∈ trace →
    passage.Spends codeHash → past.Spends codeHash →
    passage.task = past.task
  single : (s.links.map MatrixLink.mxid).Nodup
  apart : ∀ {write link}, write ∈ s.writes → write.change = .linked link →
    link.mxid ∉ s.links.map MatrixLink.mxid
  made : ∀ {link}, link ∈ s.links → ∃ passage ∈ trace, ∃ tx,
    passage.commits = some tx ∧
      { tx, change := .linked link } ∈ passage.before.writes
  capped : Throughout Room trace → Capped s trace

theorem Directory.live_sublist {s after : Directory}
    (codes : after.codes.Sublist s.codes) (subject : String) (now : Instant) :
    (after.live subject now).Sublist (s.live subject now) :=
  codes.filter _

theorem Capped.sublist {s after : Directory} {trace : Trace}
    {passage : Passage} (capped : Capped s trace)
    (codes : after.codes.Sublist s.codes) :
    Capped after (passage :: trace) := by
  intro subject now clock
  have below := capped subject now clock.earlier
  exact (Directory.live_sublist codes subject now).length_le.trans below

theorem Directory.linked_of_inserted {tx : ℕ} {write : Write}
    {link : MatrixLink}
    (told : (match write.change with
      | .linked link => if write.tx = tx then some link else none
      | .erased _ => none) = some link) :
    write.change = .linked link := by
  split at told
  next other is =>
    split at told
    next =>
      cases told
      exact is
    next => cases told
  next => cases told

theorem Directory.mem_inserted {s : Directory} {tx : ℕ} {link : MatrixLink} :
    link ∈ s.inserted tx ↔ { tx, change := .linked link } ∈ s.writes := by
  unfold Directory.inserted
  rw [List.mem_filterMap]
  constructor
  · intro there
    obtain ⟨write, member, told⟩ := there
    obtain ⟨other, change⟩ := write
    have is := Directory.linked_of_inserted told
    dsimp only at is
    subst is
    dsimp only at told
    split at told
    next same =>
      subst same
      exact member
    next => cases told
  · intro member
    exact ⟨_, member, if_pos rfl⟩

namespace Good

variable {s after : Directory} {trace : Trace} {passage : Passage}

theorem spends_before {past : Passage} {codeHash : String}
    (silent : passage.commits = none) (member : past ∈ passage :: trace)
    (spends : past.Spends codeHash) : past ∈ trace := by
  obtain ⟨tx, commits, _⟩ := spends
  exact mem_of_told silent member commits

/-- A passage that only removes rows and pending changes. -/
theorem shrink (good : Good s trace) (plain : passage.Plain)
    (codes : after.codes.Sublist s.codes)
    (links : after.links.Sublist s.links)
    (writes : after.writes.Sublist s.writes)
    (transactions : after.transactions = s.transactions) :
    Good after (passage :: trace) where
  codes member := (good.codes (codes.subset member)).later
  unique := good.unique.sublist (codes.map _)
  once member other adds again :=
    good.once (mem_of_told plain.adds member adds)
      (mem_of_told plain.adds other again) adds again
  begun member begins := by
    rw [transactions]
    exact good.begun (mem_of_told plain.begins member begins) begins
  begunOnce member other begins again :=
    good.begunOnce (mem_of_told plain.begins member begins)
      (mem_of_told plain.begins other again) begins again
  older member := by
    rw [transactions]
    exact good.older (writes.subset member)
  locks := good.locks.sublist (writes.map _)
  spent member spends := by
    obtain ⟨gone, row, inserted, same⟩ :=
      good.spent (spends_before plain.commits member spends) spends
    exact ⟨fun there => gone ((codes.map _).subset there), row,
      inserted.later, same⟩
  spentOnce member other spends again :=
    good.spentOnce (spends_before plain.commits member spends)
      (spends_before plain.commits other again) spends again
  single := good.single.sublist (links.map _)
  apart member is there :=
    good.apart (writes.subset member) is ((links.map _).subset there)
  made member := by
    obtain ⟨past, before, tx, commits, wrote⟩ := good.made (links.subset member)
    exact ⟨past, List.mem_cons_of_mem passage before, tx, commits, wrote⟩
  capped room := (good.capped room.2).sublist codes

/-- A row whose hash no earlier insertion had. -/
theorem insert (good : Good s trace) {row : LinkCode}
    (adds : passage.adds = some row) (commits : passage.commits = none)
    (begins : passage.begins = none)
    (new : ∀ past ∈ trace, ∀ other, past.adds = some other →
      other.codeHash ≠ row.codeHash)
    (codes : after.codes = s.codes ++ [row])
    (links : after.links = s.links) (writes : after.writes = s.writes)
    (transactions : after.transactions = s.transactions)
    (capped : Throughout Room (passage :: trace) →
      Capped after (passage :: trace)) :
    Good after (passage :: trace) where
  codes member := by
    rw [codes] at member
    rcases List.mem_append.mp member with old | latest
    · exact (good.codes old).later
    · rw [List.mem_singleton.mp latest]
      exact ⟨passage, List.mem_cons_self, adds⟩
  unique := by
    rw [codes, List.map_append]
    apply List.Nodup.append good.unique (List.nodup_singleton _)
    intro codeHash old latest
    obtain ⟨other, stored, same⟩ := List.mem_map.mp old
    obtain ⟨past, before, added⟩ := good.codes stored
    exact new past before other added
      (same.trans (List.mem_singleton.mp latest))
  once member other adds' again same := by
    rcases List.mem_cons.mp member with here | before
    · subst here
      rw [adds] at adds'
      cases adds'
      rcases List.mem_cons.mp other with here | otherBefore
      · subst here
        rw [adds] at again
        cases again
        exact ⟨rfl, rfl⟩
      · exact absurd same.symm (new _ otherBefore _ again)
    · rcases List.mem_cons.mp other with here | otherBefore
      · subst here
        rw [adds] at again
        cases again
        exact absurd same (new _ before _ adds')
      · exact good.once before otherBefore adds' again same
  begun member told := by
    rw [transactions]
    exact good.begun (mem_of_told begins member told) told
  begunOnce member other told again :=
    good.begunOnce (mem_of_told begins member told)
      (mem_of_told begins other again) told again
  older member := by
    rw [transactions]
    rw [writes] at member
    exact good.older member
  locks := by
    rw [writes]
    exact good.locks
  spent member spends := by
    obtain ⟨gone, other, inserted, same⟩ :=
      good.spent (spends_before commits member spends) spends
    refine ⟨?_, other, inserted.later, same⟩
    rw [codes, List.map_append, List.mem_append]
    intro there
    rcases there with old | latest
    · exact gone old
    · rw [List.map_singleton, List.mem_singleton] at latest
      obtain ⟨past, before, added⟩ := inserted
      exact new past before other added (same.trans latest)
  spentOnce member other spends again :=
    good.spentOnce (spends_before commits member spends)
      (spends_before commits other again) spends again
  single := by
    rw [links]
    exact good.single
  apart member is := by
    rw [writes] at member
    rw [links]
    exact good.apart member is
  made member := by
    rw [links] at member
    obtain ⟨past, before, tx, commits, wrote⟩ := good.made member
    exact ⟨past, List.mem_cons_of_mem passage before, tx, commits, wrote⟩
  capped := capped

theorem begin (good : Good s trace) (adds : passage.adds = none)
    (commits : passage.commits = none)
    (begins : passage.begins = some s.transactions)
    (codes : after.codes = s.codes) (links : after.links = s.links)
    (writes : after.writes = s.writes)
    (transactions : after.transactions = s.transactions + 1) :
    Good after (passage :: trace) where
  codes member := by
    rw [codes] at member
    exact (good.codes member).later
  unique := by
    rw [codes]
    exact good.unique
  once member other told again :=
    good.once (mem_of_told adds member told) (mem_of_told adds other again) told
      again
  begun member told := by
    rw [transactions]
    rcases List.mem_cons.mp member with same | before
    · rw [same, begins] at told
      cases told
      exact Nat.lt_succ_self _
    · exact Nat.lt_succ_of_lt (good.begun before told)
  begunOnce member other told again := by
    rcases List.mem_cons.mp member with same | before
    · subst same
      rw [begins] at told
      cases told
      rcases List.mem_cons.mp other with same | otherBefore
      · rw [same]
      · exact absurd (good.begun otherBefore again) (Nat.lt_irrefl _)
    · rcases List.mem_cons.mp other with same | otherBefore
      · subst same
        rw [begins] at again
        cases again
        exact absurd (good.begun before told) (Nat.lt_irrefl _)
      · exact good.begunOnce before otherBefore told again
  older member := by
    rw [transactions]
    rw [writes] at member
    exact Nat.lt_succ_of_lt (good.older member)
  locks := by
    rw [writes]
    exact good.locks
  spent member spends := by
    obtain ⟨gone, row, inserted, same⟩ :=
      good.spent (spends_before commits member spends) spends
    rw [codes]
    exact ⟨gone, row, inserted.later, same⟩
  spentOnce member other spends again :=
    good.spentOnce (spends_before commits member spends)
      (spends_before commits other again) spends again
  single := by
    rw [links]
    exact good.single
  apart member is := by
    rw [writes] at member
    rw [links]
    exact good.apart member is
  made member := by
    rw [links] at member
    obtain ⟨past, before, tx, commits, wrote⟩ := good.made member
    exact ⟨past, List.mem_cons_of_mem passage before, tx, commits, wrote⟩
  capped room := by
    apply (good.capped room.2).sublist
    rw [codes]

/-- A transaction changes something that no other one has changed. -/
theorem write (good : Good s trace) {tx : ℕ} {change : Change}
    (plain : passage.Plain) (begun : tx < s.transactions)
    (unlocked : ∀ write ∈ s.writes, write.change.key ≠ change.key)
    (free : ∀ link, change = .linked link →
      link.mxid ∉ s.links.map MatrixLink.mxid)
    (codes : after.codes = s.codes) (links : after.links = s.links)
    (writes : after.writes = { tx, change } :: s.writes)
    (transactions : after.transactions = s.transactions) :
    Good after (passage :: trace) := by
  have base : Good s (passage :: trace) :=
    good.shrink plain (List.Sublist.refl _) (List.Sublist.refl _)
      (List.Sublist.refl _) rfl
  refine ⟨?_, ?_, base.once, ?_, base.begunOnce, ?_, ?_, ?_, base.spentOnce, ?_,
    ?_, ?_, ?_⟩
  · rw [codes]
    exact base.codes
  · rw [codes]
    exact base.unique
  · rw [transactions]
    exact base.begun
  · intro write member
    rw [transactions]
    rw [writes] at member
    rcases List.mem_cons.mp member with same | old
    · rw [same]
      exact begun
    · exact base.older old
  · rw [writes, List.map_cons, List.nodup_cons]
    refine ⟨?_, base.locks⟩
    intro locked
    obtain ⟨other, member, same⟩ := List.mem_map.mp locked
    exact unlocked other member same
  · rw [codes]
    exact base.spent
  · rw [links]
    exact base.single
  · intro write link member is
    rw [links]
    rw [writes] at member
    rcases List.mem_cons.mp member with same | old
    · rw [same] at is
      exact free link is
    · exact base.apart old is
  · rw [links]
    exact base.made
  · intro room
    have below := base.capped room
    intro subject now clock
    have same : after.live subject now = s.live subject now := by
      unfold Directory.live
      rw [codes]
    rw [same]
    exact below subject now clock

theorem single_commit (good : Good s trace) (tx : ℕ) :
    ((s.links ++ s.inserted tx).map MatrixLink.mxid).Nodup := by
  rw [List.map_append]
  apply List.Nodup.append good.single
  · have keys := List.pairwise_map.mp good.locks
    apply List.pairwise_map.mpr
    apply List.pairwise_filterMap.mpr
    apply keys.imp
    intro write other different link told otherLink otherTold same
    apply different
    rw [Directory.linked_of_inserted told, Directory.linked_of_inserted otherTold]
    exact congrArg Sum.inr same
  · intro mxid linked latest
    obtain ⟨link, inserted, same⟩ := List.mem_map.mp latest
    exact good.apart (Directory.mem_inserted.mp inserted) rfl (same ▸ linked)

/-- The commit of a transaction that has erased stored codes. -/
theorem commit (good : Good s trace) {tx : ℕ} (adds : passage.adds = none)
    (commits : passage.commits = some tx) (begins : passage.begins = none)
    (before : passage.before = s)
    (stored : ∀ codeHash, { tx, change := .erased codeHash } ∈ s.writes →
      codeHash ∈ s.codes.map LinkCode.codeHash) :
    Good (s.commit tx) (passage :: trace) := by
  have spends_here : ∀ {codeHash}, passage.Spends codeHash →
      { tx, change := .erased codeHash } ∈ s.writes := by
    intro codeHash spends
    obtain ⟨other, told, wrote⟩ := spends
    rw [commits] at told
    cases told
    rw [before] at wrote
    exact wrote
  have codes_sublist : (s.commit tx).codes.Sublist s.codes :=
    List.filter_sublist
  have writes_sublist : (s.commit tx).writes.Sublist s.writes :=
    List.filter_sublist
  refine ⟨?_, ?_, ?_, ?_, ?_, ?_, ?_, ?_, ?_, ?_, ?_, ?_, ?_⟩
  · intro row member
    exact (good.codes (codes_sublist.subset member)).later
  · exact good.unique.sublist (codes_sublist.map _)
  · intro past other row otherRow member otherMember told again
    exact good.once (mem_of_told adds member told)
      (mem_of_told adds otherMember again) told again
  · intro past begun member told
    exact good.begun (mem_of_told begins member told) told
  · intro past other begun member otherMember told again
    exact good.begunOnce (mem_of_told begins member told)
      (mem_of_told begins otherMember again) told again
  · intro write member
    exact good.older (writes_sublist.subset member)
  · exact good.locks.sublist (writes_sublist.map _)
  · intro past codeHash member spends
    rcases List.mem_cons.mp member with same | earlier
    · subst same
      have wrote := spends_here spends
      obtain ⟨row, there, same⟩ := List.mem_map.mp (stored codeHash wrote)
      refine ⟨?_, row, (good.codes there).later, same⟩
      intro kept
      obtain ⟨other, member, same⟩ := List.mem_map.mp kept
      have unerased := (List.mem_filter.mp member).2
      rw [same] at unerased
      exact absurd wrote (of_decide_eq_true unerased)
    · obtain ⟨gone, row, inserted, same⟩ := good.spent earlier spends
      exact ⟨fun there => gone ((codes_sublist.map _).subset there), row,
        inserted.later, same⟩
  · intro past other codeHash member otherMember spends again
    rcases List.mem_cons.mp member with same | earlier
    · subst same
      rcases List.mem_cons.mp otherMember with same | otherEarlier
      · rw [same]
      · exact absurd (stored codeHash (spends_here spends))
          (good.spent otherEarlier again).1
    · rcases List.mem_cons.mp otherMember with same | otherEarlier
      · subst same
        exact absurd (stored codeHash (spends_here again))
          (good.spent earlier spends).1
      · exact good.spentOnce earlier otherEarlier spends again
  · exact good.single_commit tx
  · intro write link member is there
    have old := writes_sublist.subset member
    have other : write.tx ≠ tx :=
      of_decide_eq_true (List.mem_filter.mp member).2
    have links_eq : (s.commit tx).links = s.links ++ s.inserted tx := rfl
    rw [links_eq, List.map_append, List.mem_append] at there
    rcases there with linked | latest
    · exact good.apart old is linked
    · obtain ⟨new, inserted, same⟩ := List.mem_map.mp latest
      have key : write.change.key = (Change.linked new).key := by
        rw [is]
        exact congrArg Sum.inr same.symm
      have one := List.inj_on_of_nodup_map good.locks old
        (Directory.mem_inserted.mp inserted) key
      rw [one] at other
      exact other rfl
  · intro link member
    have links_eq : (s.commit tx).links = s.links ++ s.inserted tx := rfl
    rw [links_eq] at member
    rcases List.mem_append.mp member with old | latest
    · obtain ⟨past, earlier, other, told, wrote⟩ := good.made old
      exact ⟨past, List.mem_cons_of_mem passage earlier, other, told, wrote⟩
    · refine ⟨passage, List.mem_cons_self, tx, commits, ?_⟩
      rw [before]
      exact Directory.mem_inserted.mp latest
  · intro room
    exact (good.capped room.2).sublist codes_sublist

end Good

end MiryadCore.Chat
