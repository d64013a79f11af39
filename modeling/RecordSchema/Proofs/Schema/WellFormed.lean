import RecordSchema.Proofs.Schema.Document
import RecordSchema.Proofs.Text.Blank
import Mathlib.Data.List.Forall2

/-!
# Well-formed documents

A document is well-formed if each of its keys is a kind and a name, and no two of its definitions
have the same key. Reading a document accepts exactly the well-formed ones and keeps every pair;
otherwise it points to the first pair that spoils what stands before it.
-/

namespace RecordSchema

open Text Yaml

namespace Keyword

theorem ofText?_eq_some_iff {t : Text} {k : Keyword} : ofText? t = some k ↔ k.name = t := by
  constructor
  · intro h
    simpa using List.find?_some h
  · rintro rfl
    cases k <;> decide

end Keyword

namespace Key

/-- The ways to write a key, whatever the white space is. -/
inductive Written : Key → Text → Prop where
  | imports {t : Text} (h : IsSpaced [Keyword.imports.name] t) :
      Written ⟨.imports, Keyword.imports.name⟩ t
  | named {k : Keyword} {name t : Text} (h : IsSpaced [k.name, name] t)
      (hname : k = .imports ∨ isIdentifier name = true) : Written ⟨k, name⟩ t

/-- What is wrong with a text that is no key. -/
inductive Refused : KeyError → Text → Prop where
  | count {ws : List Text} {t : Text} (h : IsSpaced ws t) (hlength : ws.length ≠ 2)
      (hws : ws ≠ [Keyword.imports.name]) : Refused .notTwoWords t
  | keyword {word name t : Text} (h : IsSpaced [word, name] t)
      (hword : ∀ k : Keyword, k.name ≠ word) :
      Refused (.unknownKeyword word) t
  | name {k : Keyword} {name t : Text} (h : IsSpaced [k.name, name] t) (hk : k ≠ .imports)
      (hname : isIdentifier name = false) : Refused (.notIdentifier k name) t

variable {t : Text} {key : Key} {e : KeyError}

/-- Every text is a key or refused. -/
theorem written_or_refused (t : Text) : (∃ key, Written key t) ∨ ∃ e, Refused e t := by
  have hws := isSpaced_words t
  generalize words t = ws at hws
  match ws, hws with
  | [], hws => exact .inr ⟨_, .count hws (by simp) (by simp)⟩
  | [word], hws =>
      by_cases hword : word = Keyword.imports.name
      · subst hword
        exact .inl ⟨_, .imports hws⟩
      · exact .inr ⟨_, .count hws (by simp) (by simpa using hword)⟩
  | [word, name], hws =>
      by_cases hword : ∃ k : Keyword, k.name = word
      · obtain ⟨k, rfl⟩ := hword
        by_cases hname : k = .imports ∨ isIdentifier name = true
        · exact .inl ⟨_, .named hws hname⟩
        · obtain ⟨himports, hidentifier⟩ := not_or.mp hname
          exact .inr ⟨_, .name hws himports (Bool.eq_false_iff.mpr hidentifier)⟩
      · exact .inr ⟨_, .keyword hws fun k hk => hword ⟨k, hk⟩⟩
  | _ :: _ :: _ :: _, hws => exact .inr ⟨_, .count hws (by simp) (by simp)⟩

theorem parse_of_written (h : Written key t) : parse t = .ok key := by
  cases h with
  | imports h =>
      rw [parse, words_eq_iff.mpr h]
      rfl
  | @named k name t h hname =>
      rw [parse, words_eq_iff.mpr h]
      simp only [ofWords, Keyword.ofText?_eq_some_iff.mpr (rfl : k.name = k.name)]
      exact if_pos hname

theorem parse_of_refused (h : Refused e t) : parse t = .error e := by
  cases h with
  | @count ws t h hlength hws =>
      rw [parse, words_eq_iff.mpr h]
      match ws, hlength, hws with
      | [], _, _ => rfl
      | [word], _, hws =>
          rw [ofWords, if_neg]
          simpa using hws
      | [_, _], hlength, _ => exact absurd rfl hlength
      | _ :: _ :: _ :: _, _, _ => rfl
  | @keyword word name t h hword =>
      have hnone : Keyword.ofText? word = none := by
        cases hk : Keyword.ofText? word with
        | none => rfl
        | some k => exact absurd (Keyword.ofText?_eq_some_iff.mp hk) (hword k)
      rw [parse, words_eq_iff.mpr h]
      simp only [ofWords, hnone]
  | @name k name t h hk hname =>
      rw [parse, words_eq_iff.mpr h]
      simp only [ofWords, Keyword.ofText?_eq_some_iff.mpr (rfl : k.name = k.name)]
      exact if_neg (by simp [hk, hname])

theorem parse_eq_ok_iff : parse t = .ok key ↔ Written key t := by
  refine ⟨fun h => ?_, parse_of_written⟩
  rcases written_or_refused t with ⟨key', hwritten⟩ | ⟨e, hrefused⟩
  · rw [parse_of_written hwritten] at h
    cases h
    exact hwritten
  · rw [parse_of_refused hrefused] at h
    cases h

theorem parse_eq_error_iff : parse t = .error e ↔ Refused e t := by
  refine ⟨fun h => ?_, parse_of_refused⟩
  rcases written_or_refused t with ⟨key, hwritten⟩ | ⟨e', hrefused⟩
  · rw [parse_of_written hwritten] at h
    cases h
  · rw [parse_of_refused hrefused] at h
    cases h
    exact hrefused

theorem Written.unique {key' : Key} (h : Written key t) (h' : Written key' t) : key = key' :=
  Except.ok.inj ((parse_of_written h).symm.trans (parse_of_written h'))

end Key

namespace Document

/-- The pairs at the top of a document: none if there is no root or it stands for nothing, else
those of a mapping, with the nodes that aliases stand for. -/
inductive IsTop : Option Tree → List (Tree × Tree) → Prop where
  | absent : IsTop none []
  | null {t : Tree} (h : t.target.isNull = true) : IsTop (some t) []
  | mapping {t : Tree} {line : Nat} {tag : Text} {pairs : List (Node × Node)}
      (h : t.target.node = .mapping line tag pairs) :
      IsTop (some t) (pairs.map fun p => ((t.target.other p.1).target, (t.target.other p.2).target))

/-- Whether a pair has a key that does not define again what an earlier pair defines. -/
def IsNew (before : List (Tree × Tree)) (pair : Tree × Tree) : Prop :=
  ∀ earlier ∈ before, ∀ key : Key, key.keyword ≠ .imports → key.Written earlier.1.node.value →
    ¬ key.Written pair.1.node.value

/-- Whether every pair has a key and no two define the same. -/
structure WellFormed (pairs : List (Tree × Tree)) : Prop where
  exists_key : ∀ pair ∈ pairs, ∃ key : Key, key.Written pair.1.node.value
  distinct : pairs.Pairwise fun earlier pair => ∀ key : Key, key.keyword ≠ .imports →
    key.Written earlier.1.node.value → ¬ key.Written pair.1.node.value

/-- What is wrong with a pair that follows well-formed ones. -/
inductive Offends (before : List (Tree × Tree)) (pair : Tree × Tree) : Reason → Prop where
  | key {cause : KeyError} (h : Key.Refused cause pair.1.node.value) :
      Offends before pair (.key cause)
  | definedTwice {earlier : Tree × Tree} {key : Key} (hearlier : earlier ∈ before)
      (hkey : key.keyword ≠ .imports) (h : key.Written earlier.1.node.value)
      (h' : key.Written pair.1.node.value) : Offends before pair (.definedTwice key earlier.1.line)

/-- Whether an entry is a pair, with its key read. -/
structure IsEntry (pair : Tree × Tree) (e : Entry) : Prop where
  key : e.key.Written pair.1.node.value
  body : e.body = pair.2
  line : e.line = pair.1.line

/-- Whether the keys seen so far are those of the pairs before, with their lines. -/
def Records (seen : List (Key × Nat)) (before : List (Tree × Tree)) : Prop :=
  ∀ key line, (key, line) ∈ seen ↔
    ∃ earlier ∈ before, key.Written earlier.1.node.value ∧ earlier.1.line = line

section Step

variable {path : Text} {seen : List (Key × Nat)} {before : List (Tree × Tree)} {pair : Tree × Tree}
  {e : Entry}

theorem Records.append (h : Records seen before) (he : IsEntry pair e) :
    Records ((e.key, e.line) :: seen) (before ++ [pair]) := by
  intro key line
  rw [List.mem_cons, h key line]
  constructor
  · rintro (heq | ⟨earlier, hearlier, hkey⟩)
    · obtain ⟨rfl, rfl⟩ := Prod.mk.inj heq
      exact ⟨pair, by simp, he.key, he.line.symm⟩
    · exact ⟨earlier, by simp [hearlier], hkey⟩
  · rintro ⟨earlier, hearlier, hkey, hline⟩
    rcases List.mem_append.mp hearlier with hearlier | hlast
    · exact .inr ⟨earlier, hearlier, hkey, hline⟩
    · cases List.mem_singleton.mp hlast
      exact .inl (Prod.ext (hkey.unique he.key) (hline.symm.trans he.line.symm))

theorem WellFormed.of_append {after : List (Tree × Tree)} (h : WellFormed (before ++ after)) :
    WellFormed before :=
  ⟨fun p hp => h.exists_key p (by simp [hp]), (List.pairwise_append.mp h.distinct).1⟩

theorem wellFormed_append_iff : WellFormed (before ++ [pair]) ↔
    WellFormed before ∧ (∃ key : Key, key.Written pair.1.node.value) ∧ IsNew before pair := by
  constructor
  · intro h
    obtain ⟨_, _, hcross⟩ := List.pairwise_append.mp h.distinct
    exact ⟨h.of_append, h.exists_key pair (by simp),
      fun earlier hearlier => hcross earlier hearlier pair (by simp)⟩
  · rintro ⟨⟨hkeys, hdistinct⟩, hkey, hnew⟩
    refine ⟨fun p hp => ?_, List.pairwise_append.mpr ⟨hdistinct, List.pairwise_singleton _ _, ?_⟩⟩
    · rcases List.mem_append.mp hp with hp | hp
      · exact hkeys p hp
      · cases List.mem_singleton.mp hp
        exact hkey
    · rintro earlier hearlier p hp
      cases List.mem_singleton.mp hp
      exact hnew earlier hearlier

theorem Offends.not_isNew {reason : Reason} (h : Offends before pair reason)
    (hkey : ∃ key : Key, key.Written pair.1.node.value) : ¬ IsNew before pair := by
  cases h with
  | key h =>
      obtain ⟨key, hkey⟩ := hkey
      have hparse := Key.parse_of_written hkey
      rw [Key.parse_of_refused h] at hparse
      cases hparse
  | definedTwice hearlier himports h h' => exact fun hnew => hnew _ hearlier _ himports h h'

/-- A pair either becomes an entry or offends against those before it. -/
theorem readEntry_cases (path : Text) (pair : Tree × Tree) (hseen : Records seen before) :
    (∃ e, readEntry path seen pair = .ok e ∧ IsEntry pair e ∧ IsNew before pair) ∨
      ∃ reason, readEntry path seen pair =
          .error (.malformed { document := path, line := pair.1.line } reason) ∧
        Offends before pair reason := by
  unfold readEntry
  cases hparse : Key.parse pair.1.node.value with
  | error cause => exact .inr ⟨_, rfl, .key (Key.parse_eq_error_iff.mp hparse)⟩
  | ok key =>
      have hkey := Key.parse_eq_ok_iff.mp hparse
      simp only
      cases hlookup : seen.lookup key with
      | none =>
          refine .inl ⟨_, rfl, ⟨hkey, rfl, rfl⟩, fun earlier hearlier key' _ hkey' hpair => ?_⟩
          cases hpair.unique hkey
          have hmem := (hseen _ _).mpr ⟨earlier, hearlier, hkey', rfl⟩
          exact lookup_eq_none_iff_not_mem.mp hlookup (List.mem_map_of_mem (f := Prod.fst) hmem)
      | some first =>
          obtain ⟨earlier, hearlier, hkey', rfl⟩ := (hseen _ _).mp (mem_of_lookup_eq_some hlookup)
          by_cases himports : key.keyword = .imports
          · refine .inl ⟨_, if_pos himports, ⟨hkey, rfl, rfl⟩, fun _ _ key' himports' _ hpair => ?_⟩
            cases hpair.unique hkey
            exact himports' himports
          · exact .inr ⟨_, if_neg himports, .definedTwice hearlier himports hkey' hkey⟩

end Step

section Run

variable {path : Text} {seen : List (Key × Nat)} {before pairs : List (Tree × Tree)}
  {es : List Entry}

theorem wellFormed_of_readEntries (hseen : Records seen before) (hbefore : WellFormed before)
    (h : readEntries path seen pairs = .ok es) :
    WellFormed (before ++ pairs) ∧ List.Forall₂ IsEntry pairs es := by
  induction pairs generalizing seen before es with
  | nil =>
      cases h
      rw [List.append_nil]
      exact ⟨hbefore, .nil⟩
  | cons pair rest ih =>
      obtain ⟨e, he, h⟩ := bind_eq_ok_iff.mp h
      obtain ⟨more, hmore, h⟩ := bind_eq_ok_iff.mp h
      cases h
      rcases readEntry_cases path pair hseen with ⟨e', he', hentry, hnew⟩ | ⟨reason, herror, _⟩
      · rw [he] at he'
        cases he'
        have hbefore' := wellFormed_append_iff.mpr ⟨hbefore, ⟨_, hentry.key⟩, hnew⟩
        obtain ⟨hall, hentries⟩ := ih (hseen.append hentry) hbefore' hmore
        rw [List.append_assoc] at hall
        exact ⟨hall, .cons hentry hentries⟩
      · rw [he] at herror
        cases herror

theorem exists_readEntries (path : Text) (hseen : Records seen before)
    (h : WellFormed (before ++ pairs)) : ∃ es, readEntries path seen pairs = .ok es := by
  induction pairs generalizing seen before with
  | nil => exact ⟨[], rfl⟩
  | cons pair rest ih =>
      rw [List.append_cons] at h
      obtain ⟨_, hkey, hnew⟩ := wellFormed_append_iff.mp h.of_append
      rcases readEntry_cases path pair hseen with ⟨e, he, hentry, _⟩ | ⟨reason, _, hoffends⟩
      · obtain ⟨more, hmore⟩ := ih (hseen.append hentry) h
        exact ⟨e :: more, bind_eq_ok_iff.mpr ⟨e, he, bind_eq_ok_iff.mpr ⟨more, hmore, rfl⟩⟩⟩
      · exact absurd hnew (hoffends.not_isNew hkey)

theorem offends_of_readEntries {err : SchemaError} (hseen : Records seen before)
    (hbefore : WellFormed before) (h : readEntries path seen pairs = .error err) :
    ∃ before' pair after reason, before ++ pairs = before' ++ pair :: after ∧ WellFormed before' ∧
      Offends before' pair reason ∧
      err = .malformed { document := path, line := pair.1.line } reason := by
  induction pairs generalizing seen before with
  | nil => cases h
  | cons pair rest ih =>
      rcases readEntry_cases path pair hseen with ⟨e, he, hentry, hnew⟩ | ⟨reason, herror, hoffends⟩
      · rcases bind_eq_error_iff.mp h with h | ⟨e', he', h⟩
        · rw [he] at h
          cases h
        · rw [he] at he'
          cases he'
          rcases bind_eq_error_iff.mp h with h | ⟨more, _, h⟩
          · have hbefore' := wellFormed_append_iff.mpr ⟨hbefore, ⟨_, hentry.key⟩, hnew⟩
            obtain ⟨before', pair', after, reason, hsplit, hrest⟩ :=
              ih (hseen.append hentry) hbefore' h
            exact ⟨before', pair', after, reason, by rw [List.append_cons, hsplit], hrest⟩
          · cases h
      · rw [readEntries, herror] at h
        cases h
        exact ⟨before, pair, rest, reason, rfl, hbefore, hoffends, rfl⟩

end Run

theorem isTop_iff {t : Tree} {pairs : List (Tree × Tree)} :
    IsTop (some t) pairs ↔ t.pairs? = some pairs := by
  unfold Tree.pairs?
  simp only
  constructor
  · intro h
    cases h with
    | null h => rw [if_pos h]
    | @mapping t line tag pairs h =>
        have hnull : ¬ t.target.isNull = true := by simp [Tree.isNull, h]
        rw [if_neg hnull, h]
  · intro h
    split at h
    · next hnull =>
        cases h
        exact .null hnull
    · split at h
      · next hnode =>
          cases h
          exact .mapping hnode
      · cases h

theorem wellFormed_nil : WellFormed [] := ⟨by simp, .nil⟩

theorem records_nil : Records [] [] := by simp [Records]

section Root

variable {path : Text} {root : Option Tree} {pairs : List (Tree × Tree)}

theorem ofRoot_of_isTop (h : IsTop root pairs) :
    ofRoot path root = (readEntries path [] pairs).map (Document.mk path) := by
  cases root with
  | none =>
      cases h
      rfl
  | some t =>
      simp only [ofRoot, isTop_iff.mp h]
      cases readEntries path [] pairs with
      | error e => rfl
      | ok es => rfl

/-- A root has pairs at its top, or it is refused itself. -/
theorem exists_isTop_or (path : Text) (root : Option Tree) :
    (∃ pairs, IsTop root pairs) ∨
      ∃ t, root = some t ∧ (∀ pairs, ¬ IsTop root pairs) ∧
        ofRoot path root = .error (.malformed { document := path, line := t.line } .topLevel) := by
  cases root with
  | none => exact .inl ⟨[], .absent⟩
  | some t =>
      cases hpairs : t.pairs? with
      | some pairs => exact .inl ⟨pairs, isTop_iff.mpr hpairs⟩
      | none =>
          refine .inr ⟨t, rfl, fun pairs h => ?_, by simp only [ofRoot, hpairs]⟩
          rw [isTop_iff.mp h] at hpairs
          cases hpairs

theorem isEntry_of_ofRoot {d : Document} (h : ofRoot path root = .ok d) :
    d.path = path ∧ ∃ pairs, IsTop root pairs ∧ WellFormed pairs ∧
      List.Forall₂ IsEntry pairs d.entries := by
  rcases exists_isTop_or path root with ⟨pairs, htop⟩ | ⟨t, _, _, herror⟩
  · rw [ofRoot_of_isTop htop] at h
    obtain ⟨es, hes, rfl⟩ := map_eq_ok_iff.mp h
    exact ⟨rfl, pairs, htop, wellFormed_of_readEntries records_nil wellFormed_nil hes⟩
  · rw [h] at herror
    cases herror

theorem offends_of_ofRoot {err : SchemaError} (h : ofRoot path root = .error err) :
    (∃ t, root = some t ∧ (∀ pairs, ¬ IsTop root pairs) ∧
        err = .malformed { document := path, line := t.line } .topLevel) ∨
      ∃ before pair after reason, IsTop root (before ++ pair :: after) ∧ WellFormed before ∧
        Offends before pair reason ∧
        err = .malformed { document := path, line := pair.1.line } reason := by
  rcases exists_isTop_or path root with ⟨pairs, htop⟩ | ⟨t, hroot, hnone, herror⟩
  · rw [ofRoot_of_isTop htop] at h
    obtain ⟨before, pair, after, reason, rfl, hrest⟩ :=
      offends_of_readEntries records_nil wellFormed_nil (map_eq_error_iff.mp h)
    exact .inr ⟨before, pair, after, reason, htop, hrest⟩
  · rw [h] at herror
    cases herror
    exact .inl ⟨t, hroot, hnone, rfl⟩

end Root

/-- The well-formed documents are read, entry by entry; others are refused at the first pair that
offends against those before it. -/
theorem ofRoot_eq_ok_iff_wellFormed (path : Text) (root : Option Tree) :
    (∀ text, Yaml.Document.parse text = .ok root → parse path text = ofRoot path root) ∧
      ((∃ d, ofRoot path root = .ok d) ↔ ∃ pairs, IsTop root pairs ∧ WellFormed pairs) ∧
      (∀ d, ofRoot path root = .ok d →
        d.path = path ∧ ∃ pairs, IsTop root pairs ∧ List.Forall₂ IsEntry pairs d.entries) ∧
      ∀ err, ofRoot path root = .error err →
        (∃ t, root = some t ∧ (∀ pairs, ¬ IsTop root pairs) ∧
          err = .malformed { document := path, line := t.line } .topLevel) ∨
        ∃ before pair after reason, IsTop root (before ++ pair :: after) ∧ WellFormed before ∧
          Offends before pair reason ∧
          err = .malformed { document := path, line := pair.1.line } reason := by
  refine ⟨fun text htext => ?_, ⟨?_, ?_⟩, fun d hd => ?_, fun err herr => offends_of_ofRoot herr⟩
  · rw [parse, htext]
  · rintro ⟨d, hd⟩
    obtain ⟨_, pairs, htop, hpairs, _⟩ := isEntry_of_ofRoot hd
    exact ⟨pairs, htop, hpairs⟩
  · rintro ⟨pairs, htop, hpairs⟩
    obtain ⟨es, hes⟩ := exists_readEntries path records_nil hpairs
    exact ⟨⟨path, es⟩, by rw [ofRoot_of_isTop htop, hes]; rfl⟩
  · obtain ⟨hpath, pairs, htop, _, hentries⟩ := isEntry_of_ofRoot hd
    exact ⟨hpath, pairs, htop, hentries⟩

/-- Two imports with one name and a definition, in front of other pairs. -/
def people (more : Node → List (Node × Node)) : Tree :=
  let text (line : Nat) (value : Text) : Node := .scalar line Tag.str .plain value
  let key := text 3 "Object\u2003Person"
  { node := .mapping 1 Tag.map
      ([(text 1 "Import a", text 1 "a"), (text 2 " Import  a", text 2 "b"),
        (key, .reference 3 30 "key" 0)] ++
        more key)
    anchors := { nodes := #[key], depth := 1 } }

/-- An alias of a key defines it again. -/
def peopleTwice : Tree := people fun key => [(.reference 4 40 "key" 0, key)]

theorem ofRoot_eq_ok_iff_wellFormed_people :
    (∃ d, ofRoot "people.yaml" (some (people fun _ => [])) = .ok d ∧ d.path = "people.yaml" ∧
      ∃ pairs, IsTop (some (people fun _ => [])) pairs ∧ List.Forall₂ IsEntry pairs d.entries) ∧
    ∃ err before pair after reason, ofRoot "people.yaml" (some peopleTwice) = .error err ∧
      IsTop (some peopleTwice) (before ++ pair :: after) ∧ WellFormed before ∧
      Offends before pair reason ∧
      err = .malformed { document := "people.yaml", line := pair.1.line } reason := by
  constructor
  · obtain ⟨_, _, hentries, _⟩ :=
      ofRoot_eq_ok_iff_wellFormed "people.yaml" (some (people fun _ => []))
    have hok : ∃ d, ofRoot "people.yaml" (some (people fun _ => [])) = .ok d := ⟨_, rfl⟩
    obtain ⟨d, hd⟩ := hok
    exact ⟨d, hd, hentries d hd⟩
  · obtain ⟨_, _, _, hoffends⟩ := ofRoot_eq_ok_iff_wellFormed "people.yaml" (some peopleTwice)
    have herror : ofRoot "people.yaml" (some peopleTwice) = .error (.malformed
        { document := "people.yaml", line := 3 } (.definedTwice ⟨.object, "Person"⟩ 3)) := rfl
    rcases hoffends _ herror with ⟨t, _, hnone, _⟩ | ⟨before, pair, after, reason, h⟩
    · exact absurd (.mapping rfl) (hnone _)
    · exact ⟨_, before, pair, after, reason, herror, h⟩

end Document

end RecordSchema
