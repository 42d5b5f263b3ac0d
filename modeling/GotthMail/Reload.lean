/-
What a registration stores is what a load returns, exactly when the order of
the database agrees with the byte order in which the digests were taken and
the database accepts the text.
-/
import GotthMail.Register

namespace GotthMail

open Bytes Framing Sha256 Relational

/-- Text that no constraint on characters refuses. -/
structure Locale.Clean (locale : Locale) (text : Text) : Prop where
  storable : storable text = true
  control : locale.hasControl text = false

/-- What the database has to make of a canonical record. -/
structure Locale.Accepts (locale : Locale) (record : QueueRecord) : Prop where
  sender : locale.Clean record.envelopeSender
  recipients : ∀ recipient ∈ record.recipients, locale.Clean recipient
  sources : ∀ source ∈ record.sources, locale.hasControl source.objectID = false
  recipientOrder : locale.collation.Sorted id record.recipients
  sourceOrder : (locale.collation.lex locale.collation).Sorted QueueSource.sortKey record.sources

variable {locale : Locale} {p : Platform}

theorem characters_le (text : Text) : characters text ≤ text.length := length_decode_le text

theorem characters_pos {text : Text} (htext : text ≠ []) : 1 ≤ characters text := by
  obtain ⟨lead, rest, rfl⟩ := List.exists_cons_of_ne_nil htext
  rw [characters, decode_cons, List.length_cons]
  omega

theorem characters_address {before domain : Text} (hbefore : before ≠ [])
    (hdomain : domain ≠ []) : 3 ≤ characters (before ++ atSign :: domain) := by
  have hleft := characters_pos hbefore
  have hright := characters_pos hdomain
  unfold characters at hleft hright ⊢
  rw [decode_append_ascii before domain (by decide), List.length_append, List.length_cons]
  omega

variable {queueID : Text} {rows : List RecipientRow}

/-- A canonical address that is accepted again fits its columns. -/
theorem recipientChecks_iff (hp : p.Lookup) {recipient domain : Text}
    (hrecipient : p.normalizeQueueRecipient recipient = .ok (recipient, domain)) :
    locale.recipientChecks ⟨queueID, recipient, domain⟩ = true ↔
      locale.Clean recipient := by
  obtain ⟨before, after, henvelope, hcanonical⟩ :=
    Platform.normalizeQueueRecipient_ok_iff.mp hrecipient
  have hdomain := henvelope.normalized
  have hne := Platform.normalizeDomain_ne_nil hdomain
  have hlow := characters_address henvelope.before_ne hne
  rw [← hcanonical] at hlow
  have hhigh : characters recipient ≤ 254 :=
    (characters_le recipient).trans (hp.length_le_of_accepted hrecipient hrecipient)
  have hlength : 1 ≤ domain.length ∧ domain.length ≤ 253 :=
    ⟨List.length_pos_iff.mpr hne, hp.length_le hdomain⟩
  have hhost : domain.all isHostByte = true := List.all_eq_true.mpr (hp.host hdomain)
  simp only [Locale.recipientChecks, Bool.and_eq_true, decide_eq_true_eq, Bool.not_eq_true']
  constructor
  · rintro ⟨⟨⟨⟨hstorable, _⟩, hcontrol⟩, _⟩, _⟩
    exact ⟨hstorable, hcontrol⟩
  · rintro ⟨hstorable, hcontrol⟩
    exact ⟨⟨⟨⟨hstorable, hlow, hhigh⟩, hcontrol⟩, hlength⟩, hhost⟩

/-- A valid object identifier fits its column unless the locale takes one of
its characters for a control. -/
theorem sourceChecks_iff {source : QueueSource} (hsource : source.valid = true) :
    locale.sourceChecks ⟨queueID, source⟩ = true ↔ locale.hasControl source.objectID = false := by
  simp only [QueueSource.valid, validQueueObjectID, Bool.and_eq_true,
    decide_eq_true_eq, beq_iff_eq, List.all_eq_true, Bool.not_eq_true'] at hsource
  obtain ⟨hkind, ⟨⟨⟨hpositive, hlength⟩, hutf8⟩, htrim⟩, hcontrols⟩ := hsource
  have hzero : (0 : UInt8) ∉ source.objectID := by
    intro hmem
    have hrune := hcontrols _ (ofByte_mem_decode hmem (by decide))
    cases hrune
  have hstorable : storable source.objectID = true := by
    simp [storable, hutf8, hzero]
  have hcount : 1 ≤ characters source.objectID ∧ characters source.objectID ≤ 320 :=
    ⟨characters_pos (List.length_pos_iff.mp hpositive), (characters_le _).trans hlength⟩
  have hblank : Locale.btrimmed source.objectID = true := by
    obtain ⟨hhead, hlast⟩ := blank_not_end htrim
    simp [Locale.btrimmed, hhead, hlast]
  simp only [Locale.sourceChecks, Bool.and_eq_true, decide_eq_true_eq, Bool.not_eq_true']
  constructor
  · rintro ⟨⟨_, hcontrol⟩, _⟩
    exact hcontrol
  · intro hcontrol
    exact ⟨⟨⟨⟨hkind, hstorable⟩, hcount⟩, hcontrol⟩, hblank⟩

/-- The rows that a registration copies for its recipients. -/
theorem mapM_recipientRow (queueID : Text) {recipients : List Text}
    (hrecipients : ∀ recipient ∈ recipients, ∃ domain,
      p.normalizeQueueRecipient recipient = .ok (recipient, domain)) :
    ∃ rows : List RecipientRow, recipients.mapM (p.recipientRow queueID) = .ok rows ∧
        rows.map RecipientRow.recipient = recipients ∧ ∀ row ∈ rows, row.queueID = queueID ∧
          p.normalizeQueueRecipient row.recipient = .ok (row.recipient, row.domain) := by
  induction recipients with
  | nil => exact ⟨[], rfl, rfl, by simp⟩
  | cons recipient rest ih =>
    obtain ⟨domain, hdomain⟩ := hrecipients recipient List.mem_cons_self
    obtain ⟨rows, hrows, hsame, hall⟩ := ih fun other hother =>
      hrecipients other (List.mem_cons_of_mem _ hother)
    refine ⟨⟨queueID, recipient, domain⟩ :: rows, ?_, ?_, ?_⟩
    · have hfirst : p.recipientRow queueID recipient = .ok ⟨queueID, recipient, domain⟩ := by
        simp [Platform.recipientRow, hdomain]
      rw [List.mapM_cons, hfirst, hrows]
      rfl
    · rw [List.map_cons, hsame]
    · intro row hrow
      rcases List.mem_cons.mp hrow with rfl | hrow
      · exact ⟨rfl, hdomain⟩
      · exact hall row hrow

/-- A store without any row of a queue ID. -/
structure Database.Lacks (db : Database) (queueID : Text) : Prop where
  message : db.messages.find? queueID = none
  recipients : ∀ row ∈ db.recipients.rows, row.queueID ≠ queueID
  sources : ∀ row ∈ db.sources.rows, row.queueID ≠ queueID

/-- The rows of one queue ID after they were appended to a table without any. -/
theorem filter_appended {ρ : Type} {queueIDOf : ρ → Text} {before added : List ρ}
    (hbefore : ∀ row ∈ before, queueIDOf row ≠ queueID)
    (hadded : ∀ row ∈ added, queueIDOf row = queueID) :
    (before ++ added).filter (fun row => queueIDOf row = queueID) = added := by
  rw [List.filter_append, List.filter_eq_nil_iff.mpr, List.filter_eq_self.mpr, List.nil_append]
  · intro row hrow
    simpa using hadded row hrow
  · intro row hrow
    simpa using hbefore row hrow

variable {db next : Database} {record stored : QueueRecord} {now : Time}

/-- The inserts of a new queue ID, as one statement about the constraints and
the tables. -/
theorem insertQueue_lacks_iff {created : Bool} (hlacks : db.Lacks record.queueID)
    (hrows : record.recipients.mapM (p.recipientRow record.queueID) = .ok rows) :
    Database.insertQueue locale p record now db = .ok (created, next) ↔
      locale.messageChecks (record.newMessage now) = true ∧ rows.all locale.recipientChecks = true ∧
        (record.sources.map (SourceRow.mk record.queueID)).all locale.sourceChecks = true ∧
        created = true ∧ ∃ messages recipients sources,
          db.messages.insert (record.newMessage now) = some messages ∧
          db.recipients.insertAll rows = some recipients ∧ db.sources.insertAll
            (record.sources.map (SourceRow.mk record.queueID)) = some sources ∧
          next = { db with messages, recipients, sources } := by
  have hinsert : ∃ messages, db.messages.insert (record.newMessage now) = some messages := by
    have hfresh := Table.find?_eq_none_iff.mp hlacks.message
    exact ⟨_, by rw [Table.insert, dif_pos]; exact hfresh⟩
  obtain ⟨messages, hmessages⟩ := hinsert
  simp only [Database.insertQueue, Database.copyQueueRecipients,
    Database.copyQueueSources, hmessages, hrows, bind_ok_iff, checkSql_ok_iff,
    requireSql_ok_iff, pure_ok_iff, Except.ok.injEq, Prod.mk.injEq, Option.some.injEq]
  constructor
  · rintro ⟨_, hmessage, _, ⟨_, rfl, _, hrecipients, recipients, hinserted, rfl⟩,
      _, ⟨_, hsources, sources, hsourcesInserted, rfl⟩, rfl, rfl⟩
    exact ⟨hmessage, hrecipients, hsources, rfl, messages, recipients, sources,
      rfl, hinserted, hsourcesInserted, rfl⟩
  · rintro ⟨hmessage, hrecipients, hsources, rfl, _, recipients, sources, rfl,
      hinserted, hsourcesInserted, rfl⟩
    exact ⟨(), hmessage, _, ⟨rows, rfl, (), hrecipients, recipients, hinserted,
      rfl⟩, _, ⟨(), hsources, sources, hsourcesInserted, rfl⟩, rfl, rfl⟩

/-- The queries see the appended rows and no others. -/
theorem queries_of_inserted {messages : Table MessageRow MessageRow.queueID}
    {recipients : Table RecipientRow RecipientRow.key} {sources : Table SourceRow id}
    (hlacks : db.Lacks record.queueID) (hrows : ∀ row ∈ rows, row.queueID = record.queueID)
    (hmessages : db.messages.insert (record.newMessage now) = some messages)
    (hrecipients : db.recipients.insertAll rows = some recipients) (hsources : db.sources.insertAll
      (record.sources.map (SourceRow.mk record.queueID)) = some sources) :
    messages.find? record.queueID = some (record.newMessage now) ∧
      Database.queueRecipients locale { db with messages, recipients, sources } record.queueID =
        locale.collation.sortBy RecipientRow.recipient rows ∧
      Database.queueSources locale { db with messages, recipients, sources } record.queueID =
        (locale.collation.lex locale.collation).sortBy (fun row => row.source.sortKey)
          (record.sources.map (SourceRow.mk record.queueID)) := by
  refine ⟨?_, ?_, ?_⟩
  · rw [Table.find?_eq_some_iff, (Table.insert_eq_some_iff.mp hmessages).2]
    exact ⟨List.mem_append_right _ (List.mem_singleton_self _), rfl⟩
  · unfold Database.queueRecipients
    rw [Table.insertAll_eq_some hrecipients, filter_appended hlacks.recipients hrows]
  · unfold Database.queueSources
    rw [Table.insertAll_eq_some hsources, filter_appended hlacks.sources]
    intro row hrow
    obtain ⟨source, _, rfl⟩ := List.mem_map.mp hrow
    rfl

/-- Nothing stands in the way of the inserts of a new queue ID. -/
theorem inserts_of_lacks (now : Time) {input : QueueRegistration}
    (hrecord : Normalized p input record) (hlacks : db.Lacks record.queueID)
    (hrows : ∀ row ∈ rows, row.queueID = record.queueID)
    (hsame : rows.map RecipientRow.recipient = record.recipients) :
    ∃ messages recipients sources, db.messages.insert (record.newMessage now) = some messages ∧
        db.recipients.insertAll rows = some recipients ∧ db.sources.insertAll
          (record.sources.map (SourceRow.mk record.queueID)) = some sources := by
  have hfresh := Table.find?_eq_none_iff.mp hlacks.message
  have hkeys : (rows.map RecipientRow.key).Nodup := by
    apply List.Nodup.of_map Prod.snd
    rw [List.map_map]
    change (rows.map RecipientRow.recipient).Nodup
    obtain ⟨normalized, _, heq⟩ := hrecord.recipients
    rw [hsame, heq]
    exact canonicalRecipients_nodup _
  have habsent : ∀ row ∈ rows, db.recipients.find? row.key = none := by
    intro row hrow
    rw [Table.find?_eq_none_iff]
    intro hmem
    obtain ⟨other, hother, hkey⟩ := List.mem_map.mp hmem
    exact hlacks.recipients other hother ((congrArg Prod.fst hkey).trans (hrows row hrow))
  have hsources : ((record.sources.map (SourceRow.mk record.queueID)).map id).Nodup := by
    rw [List.map_id, hrecord.sources]
    exact canonicalSources_nodup.map fun first second hpair => (SourceRow.mk.inj hpair).2
  have habsentSources : ∀ row ∈ record.sources.map
      (SourceRow.mk record.queueID), db.sources.find? row = none := by
    intro row hrow
    obtain ⟨source, _, rfl⟩ := List.mem_map.mp hrow
    rw [Table.find?_eq_none_iff, List.map_id]
    intro hmem
    exact hlacks.sources _ hmem rfl
  obtain ⟨recipients, hinserted⟩ := db.recipients.insertAll_isSome hkeys habsent
  obtain ⟨sources, hinsertedSources⟩ := db.sources.insertAll_isSome hsources habsentSources
  exact ⟨_, recipients, sources, by rw [Table.insert, dif_pos]; exact hfresh,
    hinserted, hinsertedSources⟩

/-- The record with its children in the order of the database. -/
def Locale.arrange (locale : Locale) (record : QueueRecord) : QueueRecord :=
  { record with
    recipients := locale.collation.sortBy id record.recipients
    sources := (locale.collation.lex locale.collation).sortBy QueueSource.sortKey record.sources }

variable {input : QueueRegistration}

/-- The constraints on the parent row come down to the text of the sender. -/
theorem messageChecks_iff_clean (hp : p.Lookup) (hrecord : Normalized p input record)
    (hsender : record.envelopeSender ≠ ascii "<>" →
      ∃ again, p.normalizeQueueRecipient record.envelopeSender = .ok again) :
    locale.messageChecks (record.newMessage now) = true ↔ locale.Clean record.envelopeSender := by
  rw [messageChecks_iff]
  constructor
  · intro hchecks
    exact ⟨hchecks.sender.storable, hchecks.sender.control⟩
  · intro hclean
    have hlength : 2 ≤ characters record.envelopeSender ∧
        characters record.envelopeSender ≤ 254 := by
      by_cases hnull : record.envelopeSender = ascii "<>"
      · rw [hnull]
        decide
      · obtain ⟨⟨again, domain⟩, hagain⟩ := hsender hnull
        have hraw := hrecord.sender
        unfold Platform.normalizeQueueSender at hraw
        split at hraw
        · next heq =>
            exact absurd ((Except.ok.inj hraw).symm.trans heq) hnull
        · split at hraw
          · cases hraw
          · next address found haddress =>
              have hsame := Except.ok.inj hraw
              rw [← hsame] at hagain ⊢
              have hbound := hp.length_le_of_accepted haddress hagain
              obtain ⟨before, after, henvelope, rfl⟩ :=
                Platform.normalizeQueueRecipient_ok_iff.mp haddress
              have hlow := characters_address henvelope.before_ne
                (Platform.normalizeDomain_ne_nil henvelope.normalized)
              have hhigh := characters_le (before ++ atSign :: found)
              unfold Platform.maxEnvelopeRecipientBytes at hbound
              omega
    exact
      { queueID := hrecord.recordID_valid
        fingerprint := hrecord.fingerprint_valid
        sender := ⟨hclean.storable, hlength, hclean.control⟩
        recipientDigest := hrecord.recipientDigest_valid
        sourceDigest := hrecord.sourceDigest_valid
        holdState := rfl
        reason := rfl
        attempts := by
          change (0 : Int) ≤ 0 ∧ (0 : Int) < 2 ^ 63
          decide
        errorCode := rfl
        updated := le_refl now }

/-- The digest of the recipients as the database orders them is the stored one
exactly when it orders them as bytes. -/
theorem recipientDigest_iff (hp : p.Lookup) (hrecord : Normalized p input record)
    (hsha : Set.InjOn sum256 (record.transcripts ∪ (locale.arrange record).transcripts)) :
    digestStrings (locale.arrange record).recipients = record.recipientSetDigest ↔
      locale.collation.Sorted id record.recipients := by
  rw [hrecord.recipientDigest]
  constructor
  · intro hdigest
    have hframes := sumHex_injective hsha (by simp [QueueRecord.transcripts])
      (by simp [QueueRecord.transcripts]) hdigest
    have hlist := frames_injective (by
      intro recipient hrecipient
      exact hrecord.recipients_frameable hp recipient
        ((locale.collation.mem_sortBy id).mp hrecipient))
      (hrecord.recipients_frameable hp) hframes
    rw [← hlist]
    exact locale.collation.sortBy_sorted id _
  · intro hsorted
    rw [Locale.arrange, locale.collation.sortBy_eq_self id hsorted]

theorem sourceDigest_iff (hrecord : Normalized p input record) (hsha : Set.InjOn sum256
      (record.transcripts ∪ (locale.arrange record).transcripts)) :
    digestSources (locale.arrange record).sources = record.sourceSetDigest ↔
      (locale.collation.lex locale.collation).Sorted QueueSource.sortKey
        record.sources := by
  have hvalid : ∀ source ∈ record.sources, source.valid = true :=
    fun source hsource => hrecord.validSources source (hrecord.mem_sources.mp hsource)
  rw [hrecord.sourceDigest]
  constructor
  · intro hdigest
    have hframes := sumHex_injective hsha (by simp [QueueRecord.transcripts])
      (by simp [QueueRecord.transcripts]) hdigest
    have hlist := frames_sourceFrames_injective (by
      intro source hsource
      exact hvalid source ((Collation.mem_sortBy _ _).mp hsource)) hvalid hframes
    rw [← hlist]
    exact Collation.sortBy_sorted _ _ _
  · intro hsorted
    rw [Locale.arrange, Collation.sortBy_eq_self _ _ hsorted]

/-- The load of freshly inserted rows compares two digests and nothing else. -/
theorem loadQueueRecord_inserted_iff (hrecord : Normalized p input record)
    (hnow : now ≠ 0) (hsender : p.normalizeQueueSender record.envelopeSender =
      .ok record.envelopeSender)
    (hrows : rows.map RecipientRow.recipient = record.recipients)
    (hnormal : ∀ row ∈ rows, p.normalizeQueueRecipient row.recipient =
      .ok (row.recipient, row.domain))
    (hmessage : next.messages.find? record.queueID = some (record.newMessage now))
    (hrecipients : next.queueRecipients locale record.queueID =
      locale.collation.sortBy RecipientRow.recipient rows)
    (hsources : next.queueSources locale record.queueID =
      (locale.collation.lex locale.collation).sortBy (fun row => row.source.sortKey)
        (record.sources.map (SourceRow.mk record.queueID))) :
    next.loadQueueRecord locale p record.queueID = .ok stored ↔
      digestStrings (locale.arrange record).recipients = record.recipientSetDigest ∧
        digestSources (locale.arrange record).sources = record.sourceSetDigest ∧
        stored = (record.newMessage now).toRecord
          (locale.arrange record).recipients (locale.arrange record).sources := by
  have hrecipientList : (locale.collation.sortBy RecipientRow.recipient rows).map
      RecipientRow.recipient = (locale.arrange record).recipients := by
    have hmap := locale.collation.map_sortBy RecipientRow.recipient id rows
    rwa [hrows] at hmap
  have hsourceList : ((locale.collation.lex locale.collation).sortBy
      (fun row : SourceRow => row.source.sortKey)
      (record.sources.map (SourceRow.mk record.queueID))).map SourceRow.source =
        (locale.arrange record).sources := by
    rw [Collation.map_sortBy, List.map_map]
    exact congrArg _ (List.map_id record.sources)
  have hvalidMessage : p.ValidMessage record.queueID (record.newMessage now) :=
    { reason := rfl
      decoded := rfl
      canonical := .inl rfl
      state := rfl
      id := rfl
      validID := hrecord.recordID_valid
      sender := hsender
      attempts := le_refl (0 : Int)
      holdState := rfl
      fingerprint := hrecord.fingerprint_valid
      recipientDigest := hrecord.recipientDigest_valid
      sourceDigest := hrecord.sourceDigest_valid
      firstSeen := hnow
      updated := le_refl now
      errorCode := rfl }
  have hvalidChildren : p.ValidChildren (locale.collation.sortBy RecipientRow.recipient rows)
      ((locale.collation.lex locale.collation).sortBy (fun row => row.source.sortKey)
        (record.sources.map (SourceRow.mk record.queueID))) := by
    refine ⟨?_, ?_, ?_, ?_⟩
    · rw [(Collation.sortBy_perm _ _ _).length_eq, ← List.length_map RecipientRow.recipient, hrows]
      exact hrecord.length_recipients
    · rw [(Collation.sortBy_perm _ _ _).length_eq, List.length_map]
      exact hrecord.length_sources
    · intro row hrow
      exact hnormal row ((Collation.mem_sortBy _ _).mp hrow)
    · intro row hrow
      obtain ⟨source, hsource, rfl⟩ := List.mem_map.mp ((Collation.mem_sortBy _ _).mp hrow)
      exact hrecord.validSources source (hrecord.mem_sources.mp hsource)
  rw [Database.loadQueueRecord, hmessage, hrecipients, hsources,
    loadQueueRecord_ok_iff, hrecipientList, hsourceList]
  constructor
  · rintro ⟨row, hrow, _, _, hdigest, hsourceDigest, rfl⟩
    cases hrow
    exact ⟨hdigest, hsourceDigest, rfl⟩
  · rintro ⟨hdigest, hsourceDigest, rfl⟩
    exact ⟨_, rfl, hvalidMessage, hvalidChildren, hdigest, hsourceDigest, rfl⟩

/-- Registration in a store without the queue ID, followed by a load, returns
the canonical children, digests and sender. -/
def Database.RegistersAndLoads (locale : Locale) (p : Platform) (now : Time)
    (input : QueueRegistration) (db : Database) (record : QueueRecord) : Prop :=
  ∃ stored next loaded, Database.register locale p now input db = (.ok (stored, true), next) ∧
      next.load locale p input.queueID = .ok loaded ∧
      loaded.recipients = record.recipients ∧ loaded.sources = record.sources ∧
      loaded.recipientSetDigest = record.recipientSetDigest ∧
      loaded.sourceSetDigest = record.sourceSetDigest ∧
      loaded.envelopeSender = record.envelopeSender

/-- What is registered can be loaded exactly when the database orders the
canonical recipients and sources as their bytes do and takes none of their
characters for a control. -/
theorem registersAndLoads_iff (hp : p.Lookup) (hnow : now ≠ 0)
    (hinput : p.normalizeQueueRegistration input = .ok record)
    (hrecipients : ∀ recipient ∈ record.recipients,
      ∃ again, p.normalizeQueueRecipient recipient = .ok again)
    (hsender : record.envelopeSender ≠ ascii "<>" →
      ∃ again, p.normalizeQueueRecipient record.envelopeSender = .ok again)
    (hlacks : db.Lacks input.queueID) (hsha : Set.InjOn sum256
      (record.transcripts ∪ (locale.arrange record).transcripts)) :
    Database.RegistersAndLoads locale p now input db record ↔
      locale.Accepts record := by
  have hrecord := normalizeQueueRegistration_ok hinput
  rw [← hrecord.queueID] at hlacks
  have hcanonical : ∀ recipient ∈ record.recipients, ∃ domain,
      p.normalizeQueueRecipient recipient = .ok (recipient, domain) := by
    intro recipient hrecipient
    obtain ⟨raw, _, domain, hraw⟩ := hrecord.mem_recipients.mp hrecipient
    obtain ⟨again, hagain⟩ := hrecipients recipient hrecipient
    exact ⟨domain, hp.normalizeQueueRecipient_of_accepted hraw hagain⟩
  have hstoredSender := hp.normalizeQueueSender_of_accepted hrecord.sender hsender
  obtain ⟨rows, hrows, hsame, hall⟩ := mapM_recipientRow record.queueID hcanonical
  have hrowChecks : rows.all locale.recipientChecks = true ↔
      ∀ recipient ∈ record.recipients, locale.Clean recipient := by
    rw [← hsame, List.all_eq_true, List.forall_mem_map]
    exact forall₂_congr fun row hrow => recipientChecks_iff hp (hall row hrow).2
  have hsourceChecks : (record.sources.map (SourceRow.mk record.queueID)).all
      locale.sourceChecks = true ↔
      ∀ source ∈ record.sources, locale.hasControl source.objectID = false := by
    rw [List.all_eq_true, List.forall_mem_map]
    exact forall₂_congr fun source hsource => sourceChecks_iff
      (hrecord.validSources source (hrecord.mem_sources.mp hsource))
  constructor
  · rintro ⟨stored, next, loaded, hregister, _⟩
    obtain ⟨_, hnormal, hinsert, hload, _⟩ := registerTx_ok_iff.mp (transact_eq_ok_iff.mp hregister)
    cases hinput.symm.trans hnormal
    obtain ⟨hmessage, hrecipientRows, hsourceRows, _, messages, recipients,
      sources, hmessages, hinserted, hsources, rfl⟩ :=
      (insertQueue_lacks_iff hlacks hrows).mp hinsert
    obtain ⟨hfind, hfound, hfoundSources⟩ := queries_of_inserted hlacks
      (fun row hrow => (hall row hrow).1) hmessages hinserted hsources
    obtain ⟨hdigest, hsourceDigest, _⟩ :=
      (loadQueueRecord_inserted_iff hrecord hnow hstoredSender hsame
        (fun row hrow => (hall row hrow).2) hfind hfound hfoundSources).mp hload
    exact
      { sender := (messageChecks_iff_clean hp hrecord hsender).mp hmessage
        recipients := hrowChecks.mp hrecipientRows
        sources := hsourceChecks.mp hsourceRows
        recipientOrder := (recipientDigest_iff hp hrecord hsha).mp hdigest
        sourceOrder := (sourceDigest_iff hrecord hsha).mp hsourceDigest }
  · intro haccepts
    obtain ⟨messages, recipients, sources, hmessages, hinserted, hsources⟩ :=
      inserts_of_lacks now hrecord hlacks (fun row hrow => (hall row hrow).1) hsame
    obtain ⟨hfind, hfound, hfoundSources⟩ := queries_of_inserted hlacks
      (fun row hrow => (hall row hrow).1) hmessages hinserted hsources
    have hinsert := (insertQueue_lacks_iff hlacks hrows).mpr
      ⟨(messageChecks_iff_clean hp hrecord hsender).mpr haccepts.sender,
        hrowChecks.mpr haccepts.recipients, hsourceChecks.mpr haccepts.sources,
        rfl, messages, recipients, sources, hmessages, hinserted, hsources, rfl⟩
    have hload := (loadQueueRecord_inserted_iff hrecord hnow hstoredSender hsame
      (fun row hrow => (hall row hrow).2) hfind hfound hfoundSources).mpr
      ⟨(recipientDigest_iff hp hrecord hsha).mpr haccepts.recipientOrder,
        (sourceDigest_iff hrecord hsha).mpr haccepts.sourceOrder, rfl⟩
    have hregister := transact_eq_ok_iff.mpr (registerTx_ok_iff.mpr ⟨record, hinput, hinsert, hload,
        by simp [sameQueueIdentity, MessageRow.toRecord, QueueRecord.newMessage]⟩)
    refine ⟨_, _, (record.newMessage now).toRecord
      (locale.arrange record).recipients (locale.arrange record).sources,
      hregister, ?_, ?_, ?_, rfl, rfl, rfl⟩
    · rw [hrecord.queueID] at hload
      exact load_ok_iff.mpr ⟨hrecord.validID, hload⟩
    · exact locale.collation.sortBy_eq_self id haccepts.recipientOrder
    · exact Collation.sortBy_eq_self _ _ haccepts.sourceOrder

def noticeRecord (recipients : List Text) : QueueRecord :=
  pendingRecord (ascii "3bQzXk5Wn4z1v") (List.replicate 64 48) (ascii "<>")
    recipients [⟨.systemSender, ascii "postmaster"⟩]

theorem injOn_pair {f : Text → Text} {left right : Text}
    (hne : f left ≠ f right) : Set.InjOn f {left, right} := by
  intro first hfirst second hsecond heq
  rcases hfirst with rfl | rfl <;> rcases hsecond with rfl | rfl
  · rfl
  · exact absurd heq hne
  · exact absurd heq.symm hne
  · rfl

theorem lacks_empty (queueID : Text) : Database.empty.Lacks queueID :=
  ⟨rfl, fun _ hrow => (List.not_mem_nil hrow).elim, fun _ hrow => (List.not_mem_nil hrow).elim⟩

set_option maxRecDepth 100000 in
theorem registersAndLoads_iff_notice :
    Database.RegistersAndLoads byteLocale asciiPlatform 1
        (noticeRegistration [ascii "a@example.test", ascii "B@example.test"]) Database.empty
        (noticeRecord [ascii "B@example.test", ascii "a@example.test"]) ↔
      byteLocale.Accepts (noticeRecord [ascii "B@example.test", ascii "a@example.test"]) := by
  have harrange : byteLocale.arrange
      (noticeRecord [ascii "B@example.test", ascii "a@example.test"]) =
        noticeRecord [ascii "B@example.test", ascii "a@example.test"] := by
    decide +kernel
  apply registersAndLoads_iff asciiPlatform_lookup
  · decide
  · decide +kernel
  · intro recipient hrecipient
    rcases List.mem_cons.mp hrecipient with rfl | hrecipient
    · exact ⟨(ascii "B@example.test", ascii "example.test"), by decide +kernel⟩
    · rw [List.mem_singleton.mp hrecipient]
      exact ⟨(ascii "a@example.test", ascii "example.test"), by decide +kernel⟩
  · intro hsender
    exact absurd rfl hsender
  · exact lacks_empty _
  · rw [harrange, Set.union_self]
    apply injOn_pair
    decide +kernel

/-- Letters are compared without their case first. -/
def caselessLocale : Locale where
  collation := (byteOrder.lex byteOrder).comap (fun text => (toLower text, text))
    (fun _ _ hsame => (Prod.mk.inj hsame).2)
  lower := toLower
  control value := decide (value < 0x20 ∨ value = 0x7F)

set_option maxRecDepth 100000 in
theorem caseless_registration_fails :
    asciiPlatform.normalizeQueueRegistration
        (noticeRegistration [ascii "a@example.test", ascii "B@example.test"]) =
      .ok (noticeRecord [ascii "B@example.test", ascii "a@example.test"]) ∧
    asciiPlatform.normalizeQueueRecipient (ascii "B@example.test") =
      .ok (ascii "B@example.test", ascii "example.test") ∧
    asciiPlatform.normalizeQueueRecipient (ascii "a@example.test") =
      .ok (ascii "a@example.test", ascii "example.test") ∧
    Database.empty.Lacks (ascii "3bQzXk5Wn4z1v") ∧ (Database.register caselessLocale asciiPlatform 1
        (noticeRegistration [ascii "a@example.test", ascii "B@example.test"]) Database.empty).1 =
      .error (.text "stored outbound queue provenance digest mismatch") ∧
    ¬ Database.RegistersAndLoads caselessLocale asciiPlatform 1
        (noticeRegistration [ascii "a@example.test", ascii "B@example.test"]) Database.empty
        (noticeRecord [ascii "B@example.test", ascii "a@example.test"]) := by
  have hregister : (Database.register caselessLocale asciiPlatform 1
      (noticeRegistration [ascii "a@example.test", ascii "B@example.test"]) Database.empty).1 =
        .error (.text "stored outbound queue provenance digest mismatch") := by
    decide +kernel
  refine ⟨by decide +kernel, by decide +kernel, by decide +kernel, lacks_empty _, hregister, ?_⟩
  rintro ⟨stored, next, loaded, hok, _⟩
  rw [hok] at hregister
  cases hregister

end GotthMail
