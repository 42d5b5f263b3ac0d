/-
The message list of a folder, page by page.  Message identifiers are the UIDs
that the IMAP server reports, newest first; a page is found by looking for the
last identifier of the page before it.
-/
import GotthMail.Paging
import GotthMail.Queue
import Mathlib.Data.Finset.Sort

namespace GotthMail

open Bytes Framing

structure Attachment where
  filename : Text
  contentType : Text
  size : Int
  content : Text
deriving DecidableEq, Repr

structure Message where
  id : Text
  folder : Text
  from_ : Text
  to_ : Text
  cc : Text
  subject : Text
  bodyHTML : Text
  bodyText : Text
  date : Time
  flags : List Text
  attachments : List Attachment
  hasAttachments : Bool
deriving DecidableEq, Repr

structure MessageSummary where
  id : Text
  from_ : Text
  subject : Text
  date : Text
  flags : List Text
  hasAttachments : Bool
deriving DecidableEq, Repr

structure ListResult where
  folder : Text
  cursor : Text
  nextCursor : Text
  messages : List MessageSummary
deriving DecidableEq, Repr

/-- A connection on which a folder has been selected: the lines that answer a
search, and the header of a message. -/
structure ImapSession where
  uidSearch : Text → Except Error (List Text)
  fetchSummary : Text → Except Error Message

/-- An IMAP server, and how its dates are written. -/
structure MailServer where
  select : Text → Except Error ImapSession
  formatDate : Time → Text

def containsBreak (text : Text) : Bool := text.any fun byte => byte == 13 || byte == 10 || byte == 0

def validateIMAPMailbox (mailbox : Text) : Except Error Unit :=
  check (trimSpace mailbox != [] && decide (mailbox.length ≤ 1024) &&
    !containsBreak mailbox) "invalid imap mailbox"

def validIMAPUID (id : Text) : Bool :=
  id != [] && id.all isDigit && decide (readDecimal id < 2 ^ 63) && decide (0 < readDecimal id)

/-- Replace every occurrence of a word that is not empty, from left to right;
`skip` bytes belong to the occurrence before. -/
def replaceFrom (old new : Text) : Nat → Text → Text
  | _, [] => []
  | skip + 1, _ :: rest => replaceFrom old new skip rest
  | 0, byte :: rest =>
    if old.isPrefixOf (byte :: rest) then
      new ++ replaceFrom old new (old.length - 1) rest
    else byte :: replaceFrom old new 0 rest

def replaceAll (text old new : Text) : Text := replaceFrom old new 0 text

/-- Quote and escape, and drop what would end the line. -/
def imapQuote (value : Text) : Text :=
  34 :: replaceAll (replaceAll (replaceAll
    (replaceAll value [92] [92, 92]) [34] [92, 34]) [13] []) [10] [] ++ [34]

/-- The words of the search responses among the lines. -/
def searchFields (lines : List Text) : List Text :=
  (lines.filter fun line => (ascii "* SEARCH").isPrefixOf line).flatMap
    fun line => fields (line.drop (ascii "* SEARCH").length)

/-- The identifiers that a search found, in descending order. -/
def messageIDs (lines : List Text) : Except Error (List Text) := do
  check ((searchFields lines).all validIMAPUID) "invalid imap search uid"
  return (searchFields lines).insertionSort fun first second =>
    readDecimal second ≤ readDecimal first

def skipTo (cursor : Text) : List Text → List Text
  | [] => []
  | id :: rest => if id = cursor then rest else skipTo cursor rest

def afterCursor (ids : List Text) (cursor : Text) : List Text :=
  if cursor = [] then ids else skipTo cursor ids

/-- At most `limit` identifiers, all of them when it is not positive. -/
def bounded (limit : Int) (ids : List Text) : List Text :=
  if 0 < limit ∧ limit < ids.length then ids.take limit.toNat else ids

namespace ImapSession

variable (session : ImapSession)

def fetchSelectedMessageSummary (folder id : Text) : Except Error Message := do
  check (validIMAPUID id) "invalid imap message id"
  let message ← session.fetchSummary id
  return { message with id := id, folder := folder }

def messagesAfter (folder criteria cursor : Text) (limit : Int) :
    Except Error (List Message) := do
  let lines ← session.uidSearch criteria
  let ids ← messageIDs lines
  (bounded limit (afterCursor ids cursor)).mapM (session.fetchSelectedMessageSummary folder)

end ImapSession

/-- A folder is listed, or searched for a text. -/
inductive Reading where
  | list
  | search (query : Text)
deriving DecidableEq, Repr

def Reading.criteria : Reading → Text
  | .list => ascii "ALL"
  | .search query => ascii "TEXT " ++ imapQuote query

def validQuery (query : Text) : Bool := decide (query.length ≤ 200) && !containsBreak query

namespace MailServer

variable (server : MailServer)

def listMessages (folder cursor : Text) (limit : Int) :
    Except Error (List Message) := do
  validateIMAPMailbox folder
  let session ← server.select folder
  session.messagesAfter folder Reading.list.criteria cursor limit

def search (folder query cursor : Text) (limit : Int) :
    Except Error (List Message) := do
  validateIMAPMailbox folder
  check (validQuery query) "invalid imap search query"
  let session ← server.select folder
  session.messagesAfter folder (Reading.search query).criteria cursor limit

def pageLimit (limit : Int) : Int := if limit ≤ 0 ∨ 100 < limit then 50 else limit

def summaryOf (message : Message) : MessageSummary where
  id := message.id
  from_ := message.from_
  subject := message.subject
  date := server.formatDate message.date
  flags := message.flags
  hasAttachments := message.hasAttachments || decide (0 < message.attachments.length)

/-- One message more than the page holds says that there are more. -/
def pageOf (folder cursor : Text) (limit : Int) (messages : List Message) :
    ListResult :=
  let hadMore := decide (limit < messages.length)
  let shown := if hadMore then messages.take limit.toNat else messages
  { folder := folder
    cursor := cursor
    nextCursor := if hadMore then (shown.getLast?.map Message.id).getD [] else []
    messages := shown.map server.summaryOf }

def clientList (folder cursor : Text) (limit : Int) : Except Error ListResult := do
  let messages ← server.listMessages folder cursor (pageLimit limit + 1)
  return server.pageOf folder cursor (pageLimit limit) messages

def clientSearch (folder query cursor : Text) (limit : Int) :
    Except Error ListResult := do
  check (validQuery query) "invalid search query"
  let messages ← server.search folder query cursor (pageLimit limit + 1)
  return server.pageOf folder cursor (pageLimit limit) messages

def read (reading : Reading) (folder cursor : Text) (limit : Int) :
    Except Error ListResult :=
  match reading with
  | .list => server.clientList folder cursor limit
  | .search query => server.clientSearch folder query cursor limit

end MailServer

/-- Follow the cursors until there is none; the server may have changed at every
request. -/
def readAll (request : Nat → Text → Except Error ListResult) :
    Nat → Nat → Text → Option (List ListResult)
  | 0, _, _ => none
  | fuel + 1, index, cursor =>
    match request index cursor with
    | .error _ => none
    | .ok result =>
      if result.nextCursor = [] then some [result]
      else (readAll request fuel (index + 1) result.nextCursor).map (result :: ·)

/-- A folder and a query that the checks admit. -/
structure Admitted (folder : Text) (reading : Reading) : Prop where
  mailbox : validateIMAPMailbox folder = .ok ()
  query : ∀ query, reading = .search query → validQuery query = true

/-- A server whose folder has the given messages that meet the criteria, listed in
any order. -/
structure Shows (server : MailServer) (folder criteria : Text)
    (uids : Finset Nat) : Prop where
  answers : ∃ session lines, server.select folder = .ok session ∧
    session.uidSearch criteria = .ok lines ∧ (searchFields lines).Nodup ∧
    (∀ id, id ∈ searchFields lines ↔ ∃ uid ∈ uids, decimal uid = id) ∧
    ∀ uid ∈ uids, ∃ message, session.fetchSummary (decimal uid) = .ok message
  range : ∀ uid ∈ uids, 0 < uid ∧ uid < 2 ^ 63

def newestFirst (uids : Finset Nat) : List Nat := uids.sort (· ≥ ·)

def cursorText : Option Nat → Text
  | none => []
  | some uid => decimal uid

section Page

variable {server : MailServer} {folder : Text} {reading : Reading}
  {uids : Finset Nat} {cursor : Option Nat} {limit : Int}

theorem decimal_ne_nil (number : Nat) : decimal number ≠ [] := by
  intro hnil
  have hread := readDecimal_decimal number
  rw [hnil] at hread
  subst hread
  cases hnil

theorem validIMAPUID_decimal {uid : Nat} (huid : 0 < uid ∧ uid < 2 ^ 63) :
    validIMAPUID (decimal uid) = true := by
  simp only [validIMAPUID, readDecimal_decimal, Bool.and_eq_true, bne_iff_ne,
    List.all_eq_true, decide_eq_true_eq]
  exact ⟨⟨⟨decimal_ne_nil uid, fun byte hbyte => isDigit_of_mem_decimal hbyte⟩, huid.2⟩, huid.1⟩

theorem newestFirst_pairwise (uids : Finset Nat) : (newestFirst uids).Pairwise (· > ·) :=
  (Finset.sortedGT_sort uids).pairwise

theorem mem_newestFirst {uid : Nat} : uid ∈ newestFirst uids ↔ uid ∈ uids := Finset.mem_sort _

/-- The search result is put into descending order. -/
theorem messageIDs_shows {lines : List Text}
    (hlines : (searchFields lines).Perm ((newestFirst uids).map decimal))
    (hrange : ∀ uid ∈ uids, 0 < uid ∧ uid < 2 ^ 63) :
    messageIDs lines = .ok ((newestFirst uids).map decimal) := by
  have hvalid : (searchFields lines).all validIMAPUID = true := by
    rw [List.all_eq_true]
    intro id hid
    obtain ⟨uid, huid, rfl⟩ := List.mem_map.mp (hlines.subset hid)
    exact validIMAPUID_decimal (hrange uid (mem_newestFirst.mp huid))
  have hsorted : (searchFields lines).insertionSort (fun first second =>
      readDecimal second ≤ readDecimal first) = (newestFirst uids).map decimal := by
    have hperm := (List.perm_insertionSort (fun first second =>
      readDecimal second ≤ readDecimal first) _).trans hlines
    refine List.Perm.eq_of_pairwise ?_ (List.pairwise_insertionSort _ _) ?_ hperm
    · intro first second hfirst hsecond hle hge
      obtain ⟨left, _, rfl⟩ := List.mem_map.mp (hperm.subset hfirst)
      obtain ⟨right, _, rfl⟩ := List.mem_map.mp hsecond
      rw [readDecimal_decimal, readDecimal_decimal] at hle hge
      rw [Nat.le_antisymm hge hle]
    · rw [List.pairwise_map]
      simp only [readDecimal_decimal]
      exact (newestFirst_pairwise uids).imp Nat.le_of_lt
  simp only [messageIDs, hvalid, hsorted]
  rfl

theorem skipTo_map (last : Nat) (keys : List Nat) :
    skipTo (decimal last) (keys.map decimal) = (Paging.after (some last) keys).map decimal := by
  induction keys with
  | nil => rfl
  | cons key rest ih =>
    rw [List.map_cons, skipTo, Paging.after]
    by_cases heq : key = last
    · rw [if_pos (congrArg decimal heq), if_pos heq]
    · rw [if_neg fun hsame => heq (decimal_injective hsame), if_neg heq, ih]

theorem afterCursor_map (cursor : Option Nat) (keys : List Nat) :
    afterCursor (keys.map decimal) (cursorText cursor) =
      (Paging.after cursor keys).map decimal := by
  cases cursor with
  | none =>
    rw [cursorText, afterCursor, if_pos rfl, Paging.after]
  | some last =>
    rw [cursorText, afterCursor, if_neg (decimal_ne_nil last), skipTo_map]

theorem pageLimit_bounds (limit : Int) :
    0 < (MailServer.pageLimit limit).toNat ∧
      ((MailServer.pageLimit limit).toNat : Int) = MailServer.pageLimit limit := by
  unfold MailServer.pageLimit
  split <;> omega

theorem bounded_eq (keys : List Text) :
    bounded (MailServer.pageLimit limit + 1) keys =
      keys.take ((MailServer.pageLimit limit).toNat + 1) := by
  obtain ⟨_, hlimit⟩ := pageLimit_bounds limit
  unfold bounded
  split
  · congr 1
    omega
  · rw [List.take_of_length_le]
    omega

theorem mapM_summaries {session : ImapSession} {ids : List Text} (folder : Text)
    (hids : ∀ id ∈ ids, validIMAPUID id = true ∧ ∃ message, session.fetchSummary id = .ok message) :
    ∃ messages, ids.mapM (session.fetchSelectedMessageSummary folder) =
        .ok messages ∧ messages.map Message.id = ids := by
  induction ids with
  | nil => exact ⟨[], rfl, rfl⟩
  | cons id rest ih =>
    obtain ⟨hvalid, message, hmessage⟩ := hids id List.mem_cons_self
    obtain ⟨messages, hmessages, hsame⟩ := ih fun other hother =>
      hids other (List.mem_cons_of_mem id hother)
    have hfirst : session.fetchSelectedMessageSummary folder id =
        .ok { message with id := id, folder := folder } := by
      simp only [ImapSession.fetchSelectedMessageSummary, bind_ok_iff, check_ok_iff, pure_ok_iff]
      exact ⟨(), hvalid, message, hmessage, rfl⟩
    refine ⟨{ message with id := id, folder := folder } :: messages, ?_, ?_⟩
    · rw [List.mapM_cons]
      simp only [bind_ok_iff, pure_ok_iff]
      exact ⟨_, hfirst, messages, hmessages, rfl⟩
    · rw [List.map_cons, hsame]

theorem messagesAfter_shows
    (hshows : Shows server folder reading.criteria uids) (cursor : Option Nat) (limit : Int) :
    ∃ session messages, server.select folder = .ok session ∧
      session.messagesAfter folder reading.criteria (cursorText cursor)
        (MailServer.pageLimit limit + 1) = .ok messages ∧
      messages.map Message.id = ((Paging.after cursor (newestFirst uids)).take
          ((MailServer.pageLimit limit).toNat + 1)).map decimal := by
  obtain ⟨session, lines, hselect, hsearch, hnodup, hmembers, hfetch⟩ := hshows.answers
  have hdecimals : ((newestFirst uids).map decimal).Nodup :=
    (Finset.sort_nodup uids _).map fun _ _ heq => decimal_injective heq
  have hlines : (searchFields lines).Perm ((newestFirst uids).map decimal) := by
    rw [List.perm_ext_iff_of_nodup hnodup hdecimals]
    intro id
    simp only [hmembers, List.mem_map, mem_newestFirst]
  have hids := messageIDs_shows hlines hshows.range
  have hpage : ∀ id ∈ ((Paging.after cursor (newestFirst uids)).take
      ((MailServer.pageLimit limit).toNat + 1)).map decimal, validIMAPUID id = true ∧
        ∃ message, session.fetchSummary id = .ok message := by
    intro id hid
    obtain ⟨uid, huid, rfl⟩ := List.mem_map.mp hid
    have hmem : uid ∈ uids := mem_newestFirst.mp
      ((Paging.after_sublist cursor _).subset (List.mem_of_mem_take huid))
    exact ⟨validIMAPUID_decimal (hshows.range uid hmem), hfetch uid hmem⟩
  obtain ⟨messages, hmessages, hsame⟩ := mapM_summaries folder hpage
  refine ⟨session, messages, hselect, ?_, hsame⟩
  simp only [ImapSession.messagesAfter, bind_ok_iff]
  refine ⟨lines, hsearch, _, hids, ?_⟩
  rw [afterCursor_map, bounded_eq, ← List.map_take]
  exact hmessages

theorem getLast_cursorText (keys : List Nat) :
    ((keys.map decimal).getLast?).getD [] = cursorText keys.getLast? := by
  rw [List.getLast?_map]
  cases keys.getLast? with
  | none => rfl
  | some last => rfl

theorem pageOf_ids {messages : List Message} {keys : List Nat}
    (hmessages : messages.map Message.id =
      (keys.take ((MailServer.pageLimit limit).toNat + 1)).map decimal) :
    (server.pageOf folder (cursorText cursor) (MailServer.pageLimit limit)
        messages).messages.map MessageSummary.id =
      (keys.take (MailServer.pageLimit limit).toNat).map decimal ∧
      (server.pageOf folder (cursorText cursor) (MailServer.pageLimit limit) messages).nextCursor =
      cursorText (if (MailServer.pageLimit limit).toNat < keys.length then
        (keys.take (MailServer.pageLimit limit).toNat).getLast? else none) := by
  obtain ⟨_, hlimit⟩ := pageLimit_bounds limit
  have hsummary (shown : List Message) : (shown.map server.summaryOf).map
      MessageSummary.id = shown.map Message.id := by
    rw [List.map_map]
    rfl
  have hlength := congrArg List.length hmessages
  rw [List.length_map, List.length_map, List.length_take] at hlength
  unfold MailServer.pageOf
  by_cases hmore : (MailServer.pageLimit limit).toNat < keys.length
  · have hhad : MailServer.pageLimit limit < messages.length := by omega
    have hshown : (messages.take (MailServer.pageLimit limit).toNat).map Message.id =
        (keys.take (MailServer.pageLimit limit).toNat).map decimal := by
      rw [List.map_take, hmessages, ← List.map_take, List.take_take,
        Nat.min_eq_left (Nat.le_succ _)]
    simp only [hhad, decide_true, if_true, if_pos hmore, hsummary, hshown,
      ← List.getLast?_map, getLast_cursorText, and_self]
  · have hhad : ¬ MailServer.pageLimit limit < messages.length := by omega
    have hkeys : keys.take ((MailServer.pageLimit limit).toNat + 1) =
        keys.take (MailServer.pageLimit limit).toNat := by
      rw [List.take_of_length_le (by omega), List.take_of_length_le (by omega)]
    simp only [hhad, decide_false, Bool.false_eq_true, if_false, if_neg hmore,
      hsummary, hmessages, hkeys, cursorText, and_self]

theorem read_shows (hshows : Shows server folder reading.criteria uids)
    (hadmitted : Admitted folder reading) (cursor : Option Nat) (limit : Int) :
    ∃ result, server.read reading folder (cursorText cursor) limit = .ok result ∧
      result.cursor = cursorText cursor ∧ result.messages.map MessageSummary.id =
        (Paging.page (MailServer.pageLimit limit).toNat cursor (newestFirst uids)).1.map decimal ∧
      result.nextCursor = cursorText (Paging.page (MailServer.pageLimit limit).toNat cursor
          (newestFirst uids)).2 := by
  obtain ⟨session, messages, hselect, hmessages, hids⟩ := messagesAfter_shows hshows cursor limit
  refine ⟨server.pageOf folder (cursorText cursor) (MailServer.pageLimit limit)
    messages, ?_, rfl, (pageOf_ids hids).1, (pageOf_ids hids).2⟩
  cases reading with
  | list =>
    simp only [MailServer.read, MailServer.clientList, MailServer.listMessages,
      bind_ok_iff, pure_ok_iff]
    exact ⟨messages, ⟨(), hadmitted.mailbox, session, hselect, hmessages⟩, rfl⟩
  | search query =>
    have hquery := hadmitted.query query rfl
    simp only [MailServer.read, MailServer.clientSearch, MailServer.search,
      bind_ok_iff, pure_ok_iff, check_ok_iff]
    exact ⟨(), hquery, messages, ⟨(), hadmitted.mailbox, (), hquery, session,
      hselect, hmessages⟩, rfl⟩

end Page

section Readings

variable {folder : Text} {reading : Reading} {servers : Nat → MailServer}
  {uids : Nat → Finset Nat} {limit : Int}

def requests (servers : Nat → MailServer) (reading : Reading) (folder : Text)
    (limit : Int) (index : Nat) (cursor : Text) : Except Error ListResult :=
  (servers index).read reading folder cursor limit

def ListResult.page (result : ListResult) : Text × List Text :=
  (result.cursor, result.messages.map MessageSummary.id)

def pageText (page : Option Nat × List Nat) : Text × List Text :=
  (cursorText page.1, page.2.map decimal)

/-- Following the cursors is reading the identifiers page by page. -/
theorem readAll_traverse (limit : Int)
    (hshows : ∀ index, Shows (servers index) folder reading.criteria (uids index))
    (hadmitted : Admitted folder reading) (fuel index : Nat) (cursor : Option Nat) :
    (readAll (requests servers reading folder limit) fuel index
        (cursorText cursor)).map (List.map ListResult.page) =
      (Paging.traverse (MailServer.pageLimit limit).toNat
        (fun index => newestFirst (uids index)) fuel index cursor).map (List.map pageText) := by
  induction fuel generalizing index cursor with
  | zero => rfl
  | succ fuel ih =>
    obtain ⟨result, hread, hcursor, hids, hnext⟩ := read_shows (hshows index) hadmitted cursor limit
    have hpage : result.page = pageText (cursor, (Paging.page
        (MailServer.pageLimit limit).toNat cursor (newestFirst (uids index))).1) := by
      rw [ListResult.page, pageText, hcursor, hids]
    rw [readAll, requests, hread, Paging.traverse]
    dsimp only
    generalize Paging.page (MailServer.pageLimit limit).toNat cursor
      (newestFirst (uids index)) = found at hnext hpage
    obtain ⟨keys, next⟩ := found
    cases next with
    | none =>
      have hend : result.nextCursor = [] := hnext
      rw [if_pos hend]
      simp only [Option.map_some, List.map_cons, List.map_nil, hpage]
    | some last =>
      have hlast : result.nextCursor = cursorText (some last) := hnext
      rw [if_neg (hlast.trans_ne (decimal_ne_nil last)), hlast, Option.map_map, Option.map_map]
      have htail := congrArg (Option.map (result.page :: ·)) (ih (index + 1) (some last))
      rw [Option.map_map, Option.map_map] at htail
      simp only [Function.comp_def, List.map_cons] at htail ⊢
      rw [← hpage]
      exact htail

def returnedIDs (results : List ListResult) : List Text :=
  results.flatMap fun result => result.messages.map MessageSummary.id

/-- Present at each of the first requests. -/
def Stays (uids : Nat → Finset Nat) (count uid : Nat) : Prop := ∀ index < count, uid ∈ uids index

/-- Whenever a page is asked for, the message of the cursor is still there, or
nothing that stays comes after it. -/
def Resumed (uids : Nat → Finset Nat) (results : List ListResult) : Prop :=
  ∀ index result last, results[index]? = some result → result.cursor = decimal last →
      last ∈ uids index ∨ ∀ uid, Stays uids results.length uid → ¬ uid < last

theorem cursorText_eq_decimal {cursor : Option Nat} {last : Nat}
    (hcursor : cursorText cursor = decimal last) : cursor = some last := by
  cases cursor with
  | none => exact absurd hcursor.symm (decimal_ne_nil last)
  | some found => rw [decimal_injective hcursor]

theorem returnedIDs_eq {results : List ListResult} {pages : List (Option Nat × List Nat)}
    (hresults : results.map ListResult.page = pages.map pageText) :
    returnedIDs results = (Paging.returned pages).map decimal := by
  have hflat := congrArg (List.flatMap Prod.snd) hresults
  rw [List.flatMap_map, List.flatMap_map] at hflat
  rw [Paging.returned, List.map_flatMap]
  exact hflat

theorem resumed_iff {results : List ListResult} {pages : List (Option Nat × List Nat)}
    (hresults : results.map ListResult.page = pages.map pageText) :
    Resumed uids results ↔ Paging.Resumable (fun index => newestFirst (uids index))
      (Stays uids pages.length) 0 pages := by
  have hlength : results.length = pages.length := by
    simpa using congrArg List.length hresults
  have hindex (index : Nat) : results[index]?.map ListResult.page = pages[index]?.map pageText := by
    rw [← List.getElem?_map, ← List.getElem?_map, hresults]
  unfold Resumed Paging.Resumable
  simp only [Nat.zero_add, mem_newestFirst, hlength]
  constructor
  · intro hresumed index last keys hpage
    have hresult := hindex index
    rw [hpage] at hresult
    obtain ⟨result, hfound, hsame⟩ := Option.map_eq_some_iff.mp hresult
    exact hresumed index result last hfound (congrArg Prod.fst hsame)
  · intro hresumable index result last hfound hcursor
    have hpage := hindex index
    rw [hfound] at hpage
    obtain ⟨⟨cursor, keys⟩, hpages, hsame⟩ := Option.map_eq_some_iff.mp hpage.symm
    have htext : cursorText cursor = decimal last := (congrArg Prod.fst hsame).trans hcursor
    rw [cursorText_eq_decimal htext] at hpages
    exact hresumable index last keys hpages

end Readings

/-- Following the cursors ends and returns messages in descending order; it
returns everything that stays, and each message once, exactly when it can be
resumed after every page. -/
theorem pagination_iff (servers : Nat → MailServer) (uids : Nat → Finset Nat)
    (reading : Reading) (folder : Text) (limit : Int) (hadmitted : Admitted folder reading)
    (hshows : ∀ index, Shows (servers index) folder reading.criteria (uids index)) :
    ∃ fuel results, readAll (requests servers reading folder limit) fuel 0 [] = some results ∧
        (returnedIDs results).Pairwise
          (fun first second => readDecimal second < readDecimal first) ∧
        ((∀ uid, Stays uids results.length uid → (returnedIDs results).count (decimal uid) = 1) ↔
          Resumed uids results) := by
  have hviews (index : Nat) := newestFirst_pairwise (uids index)
  obtain ⟨fuel, hsome⟩ := Paging.exists_traverse (MailServer.pageLimit limit).toNat hviews 0 none
  obtain ⟨pages, hpages⟩ := Option.isSome_iff_exists.mp hsome
  have hread := readAll_traverse limit hshows hadmitted fuel 0 none
  rw [hpages] at hread
  obtain ⟨results, hresults, hsame⟩ := Option.map_eq_some_iff.mp hread
  have hlength : results.length = pages.length := by
    simpa using congrArg List.length hsame
  have hordered := (Paging.traverse_descending hviews hpages).1
  have hcount (uid : Nat) : (returnedIDs results).count (decimal uid) = 1 ↔
      uid ∈ Paging.returned pages := by
    rw [returnedIDs_eq hsame, List.count_map_of_injective _ _ fun _ _ heq => decimal_injective heq]
    have hnodup : (Paging.returned pages).Nodup := hordered.imp fun hlt => Nat.ne_of_gt hlt
    rw [hnodup.count]
    simp
  refine ⟨fuel, results, hresults, ?_, ?_⟩
  · rw [returnedIDs_eq hsame, List.pairwise_map]
    simp only [readDecimal_decimal]
    exact hordered
  · rw [resumed_iff hsame, ← Paging.traverse_complete_iff hviews
      (pageLimit_bounds limit).1 _ hpages]
    · simp only [hcount, hlength]
      exact ⟨fun hall uid hstays _ => hall uid hstays, fun hall uid hstays => hall uid hstays nofun⟩
    · intro uid hstays index hindex
      rw [Nat.zero_add, mem_newestFirst]
      exact hstays index hindex

/-- A server on which every message has an empty header. -/
def plainServer (uids : List Nat) : MailServer where
  select _ := .ok
    { uidSearch := fun _ => .ok [ascii "* SEARCH" ++
        uids.flatMap (fun uid => 32 :: decimal uid), ascii "A0003 OK done"]
      fetchSummary := fun id => .ok ⟨id, [], [], [], [], [], [], [], 0, [], [], false⟩ }
  formatDate _ := []

/-- Five messages, of which the third is deleted after the first page. -/
def expungedServers : Nat → MailServer
  | 0 => plainServer [1, 2, 3, 4, 5]
  | _ => plainServer [1, 2, 4, 5]

def expungedUids : Nat → Finset Nat
  | 0 => [1, 2, 3, 4, 5].toFinset
  | _ => [1, 2, 4, 5].toFinset

theorem plainServer_shows {uids : List Nat} {folder criteria : Text}
    (hfields : searchFields [ascii "* SEARCH" ++
      uids.flatMap (fun uid => 32 :: decimal uid), ascii "A0003 OK done"] = uids.map decimal)
    (hnodup : uids.Nodup) (hrange : ∀ uid ∈ uids, 0 < uid ∧ uid < 2 ^ 63) :
    Shows (plainServer uids) folder criteria uids.toFinset := by
  refine ⟨⟨_, _, rfl, rfl, ?_, ?_, fun _ _ => ⟨_, rfl⟩⟩, ?_⟩
  · rw [hfields]
    exact hnodup.map fun _ _ heq => decimal_injective heq
  · intro id
    simp only [hfields, List.mem_map, List.mem_toFinset]
  · intro uid huid
    exact hrange uid (List.mem_toFinset.mp huid)

theorem expungedServers_show (index : Nat) :
    Shows (expungedServers index) (ascii "INBOX") (ascii "ALL") (expungedUids index) := by
  cases index with
  | zero => exact plainServer_shows (by decide +kernel) (by decide) (by decide)
  | succ index =>
    exact plainServer_shows (by decide +kernel) (by decide) (by decide)

theorem pagination_iff_expunged :
    ∃ fuel results, readAll (requests expungedServers .list (ascii "INBOX") 3)
        fuel 0 [] = some results ∧
      (returnedIDs results).Pairwise (fun first second => readDecimal second < readDecimal first) ∧
      ((∀ uid, Stays expungedUids results.length uid →
          (returnedIDs results).count (decimal uid) = 1) ↔
        Resumed expungedUids results) :=
  pagination_iff expungedServers expungedUids .list (ascii "INBOX") 3
    ⟨by decide, nofun⟩ expungedServers_show

/-- Two messages that stay all along are never returned. -/
theorem expunged_cursor_stops :
    (readAll (requests expungedServers .list (ascii "INBOX") 3) 2 0 []).map
        returnedIDs = some [ascii "5", ascii "4", ascii "3"] ∧
      ∀ index, 1 ∈ expungedUids index ∧ 2 ∈ expungedUids index := by
  refine ⟨by decide +kernel, ?_⟩
  rintro (_ | index)
  · decide
  · exact ⟨by simp [expungedUids], by simp [expungedUids]⟩

end GotthMail
