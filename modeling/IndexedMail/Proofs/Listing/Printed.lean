import IndexedMail.Proofs.Listing.FileName
import IndexedMail.Proofs.Listing.Notice
import IndexedMail.Proofs.Text.Lines
import IndexedMail.Proofs.Text.Percent

/-!
# Listings as they are printed

The form of the listings that tell of messages below a mail directory: message lines with a coded
path, between lines of any other kind.  Reading such a listing gives exactly its messages, ranked,
unless a score or an article number in it is too long to be read.
-/

namespace IndexedMail.Listing

open Ranking Text.Numeral
open Text (isDigit isLineEnd LineBreak)
open Text.Percent (Coded)

/-! ## The form of a listing -/

/-- A message, with the score that a listing gives it. -/
structure Message where
  score : List Char
  group : List Char
  article : Nat
  deriving DecidableEq, Repr

namespace Message

/-- The message found on a server. -/
def hit (server : String) (x : Message) : Hit :=
  { server := server
    group := String.ofList x.group
    article := Int.ofNat x.article
    score := String.ofList x.score }

/-- Score and article number have no more digits than can be read. -/
def Short (x : Message) : Prop :=
  x.score.length ≤ maxDigits ∧ x.article < writableBound

/-- The notice that tells of the message. -/
def notice (x : Message) : Notice :=
  { score := x.score, group := x.group, article := ofNat x.article }

end Message

/-- The file names of an article in a kind of mailbox. -/
inductive FileName : Backend → Nat → List Char → Prop
  | numbered (n : Nat) : FileName .nnml n (ofNat n)
  | suffixed (n : Nat) {start : List Char} :
      '/' ∉ start → '\n' ∉ start → FileName .nnmaildir n (start ++ ':' :: ofNat n)

/-- A line that tells of a message below a directory; any set of characters of its path is
escaped that holds the percent sign and all line ends. -/
inductive MessageLine (b : Backend) (root : List Char) : Message → List Char → Prop
  | mk {x : Message} {name coded : List Char} {chosen : Char → Bool} :
      x.score ≠ [] → (∀ c ∈ x.score, isDigit c = true) →
      x.group ≠ [] → x.group.getLast? ≠ some '/' →
      FileName b x.article name →
      chosen '%' = true → (∀ c, isLineEnd c = true → chosen c = true) →
      Coded chosen (root ++ (x.group ++ '/' :: name)) coded →
        MessageLine b root x (x.score ++ (addressMark ++ coded))

/-- A line that does not begin like one that tells of a message. -/
structure OtherLine (line : List Char) : Prop where
  whole : ∀ c ∈ line, isLineEnd c = false
  unmarked : ∀ digits rest, digits ≠ [] → (∀ c ∈ digits, isDigit c = true) →
    line ≠ digits ++ (addressMark ++ rest)

/-- A listing that tells of messages, in order. -/
inductive Printed (b : Backend) (root : List Char) : List Message → List Char → Prop
  | nil : Printed b root [] []
  | other {messages : List Message} {line eol text : List Char} :
      OtherLine line → LineBreak eol → Printed b root messages text →
        Printed b root messages (line ++ (eol ++ text))
  | message {x : Message} {messages : List Message} {line eol text : List Char} :
      MessageLine b root x line → LineBreak eol → Printed b root messages text →
        Printed b root (x :: messages) (line ++ (eol ++ text))

/-- The prefixes by which a mail directory is taken off: the directory itself, or without its
final slash where that leaves a text that ends in none. -/
inductive Removes (root : List Char) : List Char → Prop
  | whole : Removes root root
  | unslashed {removed : List Char} :
      removed ≠ [] → removed.getLast? ≠ some '/' → root = removed ++ ['/'] → Removes root removed

/-! ## Groups -/

theorem withSlash_of_removes {root removed : List Char} (hroot : root.getLast? = some '/')
    (h : Removes root removed) : withSlash removed = root ∧ removed ≠ [] := by
  cases h with
  | whole =>
      refine ⟨by simp [withSlash, hroot], ?_⟩
      rintro rfl
      cases hroot
  | unslashed hne hlast heq => exact ⟨by simp [withSlash, hlast, heq], hne⟩

/-- What is taken off is compared with the directory as it is with a slash at its end. -/
theorem groupName_eq {root removed cs : List Char} (hroot : root.getLast? = some '/')
    (h : Removes root removed) (hcs : cs.getLast? ≠ some '/') :
    groupName cs removed = ((after? root (cs ++ ['/'])).map trimSlashes).getD cs := by
  obtain ⟨hslash, hne⟩ := withSlash_of_removes hroot h
  have hempty : removed.isEmpty = false := by simpa using hne
  have htrim := trimSlashes_of_getLast? hcs
  cases hafter : after? root (cs ++ ['/']) with
  | some rest => simp [groupName, hempty, hslash, htrim, hafter]
  | none => simp [groupName, hempty, hslash, htrim, hafter, trimSlashes_slash]

/-- The group of a directory is what stands behind the mail directory. -/
theorem groupName_of_removes {root removed group : List Char} (hroot : root.getLast? = some '/')
    (h : Removes root removed) (hne : group ≠ []) (hlast : group.getLast? ≠ some '/') :
    groupName (root ++ group) removed = group := by
  have hboth : (root ++ group).getLast? ≠ some '/' := by
    rwa [List.getLast?_append_of_ne_nil _ hne]
  have hafter : after? root (root ++ group ++ ['/']) = some (group ++ ['/']) := by
    rw [after?_eq_some_iff, List.append_assoc]
  rw [groupName_eq hroot h hboth, hafter]
  exact (trimSlashes_slash group).trans (trimSlashes_of_getLast? hlast)

/-! ## File names -/

theorem not_mem_ofNat {c : Char} (h : isDigit c = false) (n : Nat) : c ∉ ofNat n :=
  Text.not_mem_of_isDigit h fun _ hd => isDigit_of_mem_ofNat hd

theorem slash_not_mem_of_fileName {b : Backend} {n : Nat} {name : List Char}
    (h : FileName b n name) : '/' ∉ name := by
  have hn : '/' ∉ ofNat n := not_mem_ofNat (by decide) n
  cases h with
  | numbered => exact hn
  | suffixed _ hslash _ => simp [hslash, hn]

theorem shaped_of_fileName {b : Backend} {n : Nat} {name : List Char}
    (h : FileName b n name) : Shaped b (ofNat n) name := by
  cases h with
  | numbered => exact .numbered (ofNat_ne_nil n) fun c hc => isDigit_of_mem_ofNat hc
  | @suffixed _ start _ _ =>
      exact .suffixed start (ofNat_ne_nil n) fun c hc => isDigit_of_mem_ofNat hc

theorem newline_not_mem_of_fileName {b : Backend} {n : Nat} {name : List Char}
    (h : FileName b n name) : '\n' ∉ name := by
  have hn : '\n' ∉ ofNat n := not_mem_ofNat (by decide) n
  cases h with
  | numbered => exact hn
  | suffixed _ _ hline => simp [hline, hn]

theorem articleDigits?_of_fileName {b : Backend} {n : Nat} {name : List Char}
    (h : FileName b n name) : articleDigits? b name = some (ofNat n) :=
  articleDigits?_eq_some_iff.2
    ⟨name, shaped_of_fileName h, newline_not_mem_of_fileName h, .inl rfl⟩

/-! ## Lines -/

theorem isDigit_tab : isDigit '\t' = false := by decide

theorem splitLine?_append {score coded : List Char} (hne : score ≠ [])
    (hdigits : ∀ c ∈ score, isDigit c = true) (hcoded : coded ≠ [])
    (hwhole : ∀ c ∈ coded, isLineEnd c = false) :
    splitLine? (score ++ (addressMark ++ coded)) = some (score, coded) := by
  have hbody : Text.trimEndBy (· == '\r') (score ++ (addressMark ++ coded)) =
      score ++ (addressMark ++ coded) := by
    apply Text.trimEndBy_of_getLast?
    intro c hc
    rw [List.getLast?_append_of_ne_nil _ (by simp [hcoded]),
      List.getLast?_append_of_ne_nil _ hcoded] at hc
    rw [beq_eq_false_iff_ne]
    rintro rfl
    exact absurd (hwhole _ (List.mem_of_getLast? hc)) (by decide)
  have hmark : addressMark = '\t' :: "file://".toList := rfl
  have hscore : (score ++ (addressMark ++ coded)).takeWhile isDigit = score := by
    rw [List.takeWhile_append_of_pos hdigits, hmark, List.cons_append, List.takeWhile_cons,
      isDigit_tab]
    simp
  have hrest : (score ++ (addressMark ++ coded)).dropWhile isDigit = addressMark ++ coded := by
    rw [List.dropWhile_append_of_pos hdigits, hmark, List.cons_append, List.dropWhile_cons,
      isDigit_tab]
    simp
  have hafter : after? addressMark (addressMark ++ coded) = some coded :=
    after?_eq_some_iff.2 rfl
  have hfeed : '\n' ∉ coded := fun hc => absurd (hwhole _ hc) (by decide)
  simp only [splitLine?, hbody, hscore, hrest, hafter, dropFinalNewline_of_not_mem hfeed]
  simp [hne, hcoded, hfeed]

/-- A line that is split begins with digits and the mark of an address. -/
theorem eq_append_of_splitLine? {line score coded : List Char}
    (hwhole : ∀ c ∈ line, isLineEnd c = false) (h : splitLine? line = some (score, coded)) :
    ∃ rest, line = score ++ (addressMark ++ rest) := by
  have hbody : Text.trimEndBy (· == '\r') line = line := by
    apply Text.trimEndBy_of_getLast?
    intro c hc
    rw [beq_eq_false_iff_ne]
    rintro rfl
    exact absurd (hwhole _ (List.mem_of_getLast? hc)) (by decide)
  simp only [splitLine?, hbody] at h
  split at h
  · cases h
  · split at h
    · cases h
    · rename_i rest hafter
      split at h
      · cases h
      · cases h
        refine ⟨rest, ?_⟩
        rw [← after?_eq_some_iff.1 hafter, List.takeWhile_append_dropWhile]

theorem notice?_of_otherLine {b : Backend} {removed line : List Char} (h : OtherLine line) :
    notice? b removed line = none := by
  cases hsplit : splitLine? line with
  | none => simp [notice?, hsplit]
  | some found =>
      obtain ⟨score, coded⟩ := found
      obtain ⟨hne, hdigits⟩ := isDigit_of_splitLine? hsplit
      obtain ⟨rest, hline⟩ := eq_append_of_splitLine? h.whole hsplit
      exact absurd hline (h.unmarked score rest hne hdigits)

theorem isLineEnd_of_mem_addressMark {c : Char} (h : c ∈ addressMark) : isLineEnd c = false := by
  have hany : addressMark.any isLineEnd = false := by decide
  exact Text.eq_false_of_any hany c h

/-- A message line has no line end in it, and its notice is that of the message. -/
theorem notice?_of_messageLine {b : Backend} {root removed line : List Char} {x : Message}
    (hroot : root.getLast? = some '/') (hremoved : Removes root removed)
    (h : MessageLine b root x line) :
    (∀ c ∈ line, isLineEnd c = false) ∧ notice? b removed line = some x.notice := by
  cases h with
  | @mk name coded chosen hne hdigits hgroup hlast hname hpercent hends hcoded =>
      have hwhole : ∀ c ∈ coded, isLineEnd c = false := fun c hc =>
        Text.Percent.isLineEnd_of_mem_coded hends hcoded hc
      have hfilled : coded ≠ [] := Text.Percent.coded_ne_nil hcoded (by simp)
      have hboth : (root ++ x.group).getLast? ≠ some '/' := by
        rwa [List.getLast?_append_of_ne_nil _ hgroup]
      have hpath : splitPath (Text.Percent.decode coded) = (root ++ x.group, name) := by
        rw [Text.Percent.decode_of_coded hpercent hcoded, ← List.append_assoc]
        exact splitPath_append (by simp [hgroup]) hboth (slash_not_mem_of_fileName hname)
      refine ⟨?_, ?_⟩
      · intro c hc
        rcases List.mem_append.1 hc with hc | hc
        · exact Text.isLineEnd_of_isDigit (hdigits c hc)
        rcases List.mem_append.1 hc with hc | hc
        · exact isLineEnd_of_mem_addressMark hc
        · exact hwhole c hc
      · simp only [notice?, splitLine?_append hne hdigits hfilled hwhole, hpath,
          articleDigits?_of_fileName hname, groupName_of_removes hroot hremoved hgroup hlast]
        rfl

/-- The notices of a printed listing are those of its messages, in order. -/
theorem notices_of_printed {b : Backend} {root removed text : List Char}
    {messages : List Message} (hroot : root.getLast? = some '/') (hremoved : Removes root removed)
    (h : Printed b root messages text) :
    notices b removed text = messages.map Message.notice := by
  induction h with
  | nil => rfl
  | other hline heol _ ih =>
      rw [notices, Text.lines_append_break hline.whole heol, List.filterMap_cons,
        notice?_of_otherLine hline]
      exact ih
  | message hline heol _ ih =>
      obtain ⟨hwhole, hnotice⟩ := notice?_of_messageLine hroot hremoved hline
      rw [notices, Text.lines_append_break hwhole heol, List.filterMap_cons, hnotice,
        List.map_cons]
      exact congrArg _ ih

/-! ## Whole listings -/

theorem hit_notice (server : String) (x : Message) : x.notice.hit server = x.hit server := by
  simp [Notice.hit, Message.notice, Message.hit, ofDigits_ofNat]

theorem readable_notice_iff (x : Message) : x.notice.Readable ↔ x.Short := by
  simp only [Notice.Readable, Message.notice, Message.Short, length_ofNat_le_maxDigits_iff]

theorem parse_printed_eq_ok_iff {m : Mailbox} {b : Backend} {root text : List Char}
    {messages : List Message} {hits : List Hit} (hb : m.backend = b.name)
    (hroot : root.getLast? = some '/') (hremoved : Removes root m.removePrefix.toList)
    (h : Printed b root messages text) :
    parse m text = .ok hits ↔
      (∀ x ∈ messages, x.Short) ∧
        StablyRanked Hit.value (messages.map (Message.hit m.server)) hits := by
  have hhits : (messages.map Message.notice).map (Notice.hit m.server) =
      messages.map (Message.hit m.server) := by simp [hit_notice]
  rw [parse_eq_ok_iff hb, notices_of_printed hroot hremoved h, hhits, List.forall_mem_map]
  simp only [readable_notice_iff]

/--
A printed listing is read as its messages by falling score, those of one score in the order of
their lines, exactly if no numeral in it is too long; otherwise reading fails.
-/
theorem parse_printed {m : Mailbox} {b : Backend} {root text : List Char}
    {messages : List Message} (hb : m.backend = b.name) (hroot : root.getLast? = some '/')
    (hremoved : Removes root m.removePrefix.toList) (h : Printed b root messages text) :
    ∃ hits, StablyRanked Hit.value (messages.map (Message.hit m.server)) hits ∧
      (parse m text = .ok hits ↔ ∀ x ∈ messages, x.Short) ∧
      ((∃ e, parse m text = .error e) ↔ ∃ x ∈ messages, ¬ x.Short) := by
  have hread : ∀ hits, parse m text = .ok hits ↔ (∀ x ∈ messages, x.Short) ∧
      StablyRanked Hit.value (messages.map (Message.hit m.server)) hits := fun hits =>
    parse_printed_eq_ok_iff hb hroot hremoved h
  have hstable := stablyRanked_mergeSort Hit.value (messages.map (Message.hit m.server))
  refine ⟨_, hstable, ?_, ?_⟩
  · rw [hread]
    exact and_iff_left hstable
  · constructor
    · rintro ⟨e, he⟩
      by_contra hnone
      have hshort : ∀ x ∈ messages, x.Short := by
        intro x hx
        by_contra hlong
        exact hnone ⟨x, hx, hlong⟩
      have hok := (hread _).2 ⟨hshort, hstable⟩
      rw [he] at hok
      cases hok
    · rintro ⟨x, hx, hlong⟩
      cases hp : parse m text with
      | error e => exact ⟨e, rfl⟩
      | ok hits => exact absurd (((hread hits).1 hp).1 x hx) hlong

/-- The characters that have to be escaped, and blanks. -/
def plainEscapes (c : Char) : Bool :=
  c == '%' || isLineEnd c || c == ' '

theorem plainEscapes_of_isLineEnd (c : Char) (h : isLineEnd c = true) : plainEscapes c = true := by
  simp [plainEscapes, h]

/-- A header, and a message in a group with an escaped blank. -/
theorem parse_printed_blank :
    ∃ hits, StablyRanked Hit.value [Message.hit "s" ⟨['7'], "a b".toList, 3⟩] hits ∧
      (parse ⟨"s", "/m", "nnml"⟩ "hits\r\n7\tfile:///m/a%20b/3\n".toList = .ok hits ↔
        ∀ x ∈ [(⟨['7'], "a b".toList, 3⟩ : Message)], x.Short) ∧
      ((∃ e, parse ⟨"s", "/m", "nnml"⟩ "hits\r\n7\tfile:///m/a%20b/3\n".toList = .error e) ↔
        ∃ x ∈ [(⟨['7'], "a b".toList, 3⟩ : Message)], ¬ x.Short) := by
  have hname : Coded plainEscapes "b/3".toList "b/3".toList :=
    Text.Percent.coded_self (Text.eq_false_of_any rfl)
  have hescape : Text.Percent.Escapes [0x20] ['%', '2', '0'] := .cons rfl rfl .nil
  have hblank : Coded plainEscapes (' ' :: "b/3".toList) (['%', '2', '0'] ++ "b/3".toList) :=
    .escaped rfl hescape hname
  have hpath : Coded plainEscapes "/m/a b/3".toList "/m/a%20b/3".toList :=
    .literal rfl (.literal rfl (.literal rfl (.literal rfl hblank)))
  have hline : MessageLine .nnml "/m/".toList ⟨['7'], "a b".toList, 3⟩
      "7\tfile:///m/a%20b/3".toList :=
    .mk (by decide) (List.all_eq_true.1 rfl) (by decide) (by decide) (.numbered 3) rfl
      plainEscapes_of_isLineEnd hpath
  have hother : OtherLine "hits".toList := by
    refine ⟨Text.eq_false_of_any rfl, ?_⟩
    intro digits rest hne hdigits heq
    cases digits with
    | nil => exact hne rfl
    | cons d more =>
        obtain rfl : 'h' = d := (List.cons.inj heq).1
        exact absurd (hdigits 'h' List.mem_cons_self) (by decide)
  have hroot : "/m/".toList.getLast? = some '/' := by decide
  have hremoved : Removes "/m/".toList "/m".toList := .unslashed (by decide) (by decide) rfl
  have hprinted := Printed.other hother .crlf (.message hline .lf .nil)
  exact parse_printed (m := ⟨"s", "/m", "nnml"⟩) rfl hroot hremoved hprinted

/-! ## A score that is too long -/

/-- A message whose score has one digit more than can be read. -/
def overlong : Message :=
  { score := List.replicate (maxDigits + 1) '1', group := ['g'], article := 5 }

/-- The listing of that message. -/
def overlongListing : List Char :=
  overlong.score ++ "\tfile:///m/g/5\n".toList

theorem printed_overlong : Printed .nnml "/m/".toList [overlong] overlongListing := by
  have hdigits : ∀ c ∈ overlong.score, isDigit c = true := by
    intro c hc
    obtain ⟨-, rfl⟩ := List.mem_replicate.1 hc
    decide
  have hpath : Coded plainEscapes "/m/g/5".toList "/m/g/5".toList :=
    Text.Percent.coded_self (Text.eq_false_of_any rfl)
  have hline : MessageLine .nnml "/m/".toList overlong
      (overlong.score ++ (addressMark ++ "/m/g/5".toList)) :=
    .mk (by simp [overlong]) hdigits (by decide) (by decide) (.numbered 5) rfl
      plainEscapes_of_isLineEnd hpath
  have hprinted := Printed.message hline .lf .nil
  rwa [List.append_assoc] at hprinted

theorem not_short_overlong : ¬ overlong.Short := by
  intro h
  have hlen : overlong.score.length = maxDigits + 1 := List.length_replicate
  have hle := h.1
  omega

theorem exists_error_of_overlong (server : String) :
    ∃ e, parse ⟨server, "/m/", "nnml"⟩ overlongListing = .error e := by
  cases hp : parse ⟨server, "/m/", "nnml"⟩ overlongListing with
  | error e => exact ⟨e, rfl⟩
  | ok hits =>
      have hroot : "/m/".toList.getLast? = some '/' := by decide
      have hread := (parse_printed_eq_ok_iff rfl hroot .whole printed_overlong).1 hp
      exact absurd (hread.1 overlong List.mem_cons_self) not_short_overlong

/-- A well-formed listing that is not read at all. -/
theorem printed_listing_not_read :
    Printed .nnml "/m/".toList [overlong] overlongListing ∧ Removes "/m/".toList "/m/".toList ∧
      ∀ hits, parse ⟨"s", "/m/", "nnml"⟩ overlongListing ≠ .ok hits := by
  refine ⟨printed_overlong, .whole, ?_⟩
  obtain ⟨e, he⟩ := exists_error_of_overlong "s"
  intro hits
  simp [he]

end IndexedMail.Listing
