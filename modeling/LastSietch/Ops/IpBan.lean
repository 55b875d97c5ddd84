import LastSietch.Lib.Runs

/-!
# Bans in the firewall

`dune-ipban.py` and `dune-ban-watcher.py`: drops of source addresses in the INPUT chain, tagged in a
comment with what they are for. A rule is the words that `iptables -S` prints of it, and `-D` takes
those words. What a command has read of the database and of the allowlist is an argument of it.
-/

namespace LastSietch.IpBan

open Runs (exec Along)

/-- The characters of an address as `host` prints it. -/
def addressChars : List Char := "0123456789abcdef.:".toList

structure Ip where
  text : List Char
  valid : ∀ c ∈ text, c ∈ addressChars
  deriving DecidableEq, Repr

/-- `ipaddress`. -/
structure IpLib where
  Address : Type
  Network : Type
  address? : List Char → Option Address
  network? : List Char → Option Network
  mem : Address → Network → Bool

/-- `HARDCODED_ALLOW`, with the names that stand for the two hosts. -/
def hardcodedAllow : List (List Char) :=
  ["127.0.0.0/8", "10.0.0.0/8", "172.16.0.0/12", "192.168.0.0/16", "169.254.0.0/16",
   "100.64.0.0/10", "::1/128", "fc00::/7", "fe80::/10", "<game-host>/32",
   "<relay-source-ip>/32"].map String.toList

/-- `str.isspace`, for one character. -/
def isSpace (c : Char) : Bool :=
  let n := c.toNat
  (9 ≤ n && n ≤ 13) || (28 ≤ n && n ≤ 32) || [0x85, 0xa0, 0x1680].contains n ||
    (0x2000 ≤ n && n ≤ 0x200a) || [0x2028, 0x2029, 0x202f, 0x205f, 0x3000].contains n

/-- `raw.split("#", 1)[0].strip()`. -/
def allowEntry (raw : List Char) : List Char :=
  (((raw.takeWhile (· ≠ '#')).dropWhile isSpace).reverse.dropWhile isSpace).reverse

/-- `_load_allow_nets`, for the lines of the file if it is there. -/
def loadAllowNets (lib : IpLib) (file : Option (List (List Char))) : List lib.Network :=
  hardcodedAllow.filterMap lib.network? ++
    (((file.getD []).map allowEntry).filter (· ≠ [])).filterMap lib.network?

def isAllowlisted (lib : IpLib) (nets : List lib.Network) (ip : Ip) : Bool :=
  match lib.address? ip.text with
  | none => true
  | some address => nets.any (lib.mem address)

/-! ## Rules -/

abbrev Rule := List (List Char)

/-- The line that `iptables -S INPUT` prints of the rule. -/
def line (r : Rule) : List Char := "-A INPUT".toList ++ r.flatMap (fun w => ' ' :: w)

def digits (n : Nat) : List Char := Nat.toDigits 10 n

def banTag (accountId : Nat) : List Char := "lsban:aid=".toList ++ digits accountId

def kickTag (accountId : Nat) : List Char := "lskick:aid=".toList ++ digits accountId

/-- What `-s ip -m comment --comment comment -j DROP` is printed as. -/
def drop (ip : Ip) (comment : List Char) : Rule :=
  ["-s".toList, ip.text ++ "/32".toList, "-m".toList, "comment".toList, "--comment".toList, comment,
   "-j".toList, "DROP".toList]

/-- `tag in line`. -/
def Stands (tag : List Char) (r : Rule) : Prop := tag <:+: line r

instance (tag : List Char) (r : Rule) : Decidable (Stands tag r) :=
  inferInstanceAs (Decidable (_ <:+: _))

def Tagged (r : Rule) : Prop := Stands "lsban:aid=".toList r ∨ Stands "lskick:aid=".toList r

instance (r : Rule) : Decidable (Tagged r) := inferInstanceAs (Decidable (_ ∨ _))

def untagged (rules : List Rule) : List Rule := rules.filter (fun r => !Tagged r)

/-- What a command has read: the allowlist file, the recent addresses of the accounts (and for which
the query does not fail), and which addresses `iptables -I` takes. -/
structure Look where
  allowFile : Option (List (List Char))
  recent : Nat → List Ip
  reads : Nat → Bool
  accepts : Ip → Bool

section Commands

variable (lib : IpLib) (look : Look)

def Look.protects (ip : Ip) : Bool := isAllowlisted lib (loadAllowNets lib look.allowFile) ip

/-- `apply_drop`; `none` is the `RuntimeError`. -/
def applyDrop (ip : Ip) (comment : List Char) (rules : List Rule) : Option (List Rule) :=
  if drop ip comment ∈ rules then some rules
  else if look.accepts ip then some (drop ip comment :: rules)
  else none

def removeExact (ip : Ip) (comment : List Char) (rules : List Rule) : List Rule :=
  rules.filter (· ≠ drop ip comment)

/-- `remove_by_tag`: each line in which the tag stands is given to `-D`, which takes the first rule
with these words. -/
def removeByTag (tag : List Char) (rules : List Rule) : List Rule :=
  rules.foldl (fun rest r => if Stands tag r then rest.erase r else rest) rules

/-- The droppable addresses of `resolve_targets`. -/
def Look.droppable (accountId : Nat) : List Ip :=
  (look.recent accountId).filter fun ip => !look.protects lib ip

/-- The loop of `cmd_kick` and of `cmd_drop`: an error is logged, and the loop goes on. -/
def dropAll (comment : List Char) (ips : List Ip) (rules : List Rule) : List Rule :=
  ips.foldl (fun rules ip => (applyDrop look ip comment rules).getD rules) rules

/-- The loop of `cmd_reapply` for one account: an error ends it. -/
def reapplyIps (comment : List Char) : List Ip → List Rule → List Rule
  | [], rules => rules
  | ip :: ips, rules =>
    match applyDrop look ip comment rules with
    | none => rules
    | some rules => reapplyIps comment ips rules

/-- One account of `cmd_reapply`. -/
def reapplyAccount (rules : List Rule) (accountId : Nat) : List Rule :=
  if look.reads accountId then
    reapplyIps look (banTag accountId) (look.droppable lib accountId) rules
  else rules

def reapplyAll (accounts : List Nat) (rules : List Rule) : List Rule :=
  accounts.foldl (reapplyAccount lib look) rules

end Commands

/-! ## Bans -/

/-- A row of `lsadmin.bans`. -/
structure Ban where
  id : Nat
  accountId : Option Nat
  active : Bool
  expiresAt : Option Int
  deriving DecidableEq, Repr

def activeBanAccounts (now : Int) (bans : List Ban) : List Nat :=
  (bans.filter fun b => b.active && b.expiresAt.all (fun at_ => now < at_)).filterMap (·.accountId)

def Ban.due (now : Int) (b : Ban) : Bool := b.active && b.expiresAt.any (fun at_ => at_ ≤ now)

/-- `EXPIRE_BANS_SQL`. -/
def expireBans (now : Int) (bans : List Ban) : List Ban × List Nat :=
  (bans.map (fun b => if b.due now then { b with active := false } else b),
   (bans.filter (Ban.due now)).filterMap (·.accountId))

/-- `undrops` are the expired accounts that the watcher has not come to yet. -/
structure State where
  rules : List Rule
  bans : List Ban
  undrops : List Nat

inductive Event
  | kick (look : Look) (accountId : Nat)
  | unkick (accountId : Nat) (ip : Ip)
  | drop (look : Look) (accountId : Nat)
  | undrop (accountId : Nat)
  | reapply (look : Look) (now : Int)
  | expire (now : Int)
  | lift
  | setBans (bans : List Ban)

def Event.undropped (s : State) : Event → Option Nat
  | .undrop accountId => some accountId
  | .lift => s.undrops.head?
  | _ => none

def step (lib : IpLib) (s : State) : Event → Option State
  | .kick look accountId =>
    some { s with rules := dropAll look (kickTag accountId) (look.droppable lib accountId) s.rules }
  | .unkick accountId ip => some { s with rules := removeExact ip (kickTag accountId) s.rules }
  | .drop look accountId =>
    some { s with rules := dropAll look (banTag accountId) (look.droppable lib accountId) s.rules }
  | .undrop accountId => some { s with rules := removeByTag (banTag accountId) s.rules }
  | .reapply look now =>
    some { s with rules := reapplyAll lib look (activeBanAccounts now s.bans) s.rules }
  | .expire now =>
    let (bans, accounts) := expireBans now s.bans
    some { s with bans, undrops := s.undrops ++ accounts }
  | .lift =>
    match s.undrops with
    | [] => none
    | accountId :: undrops =>
      some { s with rules := removeByTag (banTag accountId) s.rules, undrops }
  | .setBans bans => some { s with bans }

/-! ## The tags -/

def beforeComment (ip : Ip) : List Char :=
  "-A INPUT".toList ++ ["-s".toList, ip.text ++ "/32".toList, "-m".toList, "comment".toList,
    "--comment".toList].flatMap (fun w => ' ' :: w) ++ [' ']

def afterComment : List Char := ["-j".toList, "DROP".toList].flatMap (fun w => ' ' :: w)

theorem line_drop (ip : Ip) (comment : List Char) :
    line (drop ip comment) = beforeComment ip ++ comment ++ afterComment := by
  unfold line drop beforeComment afterComment
  simp only [List.flatMap_cons, List.flatMap_nil, List.append_assoc, List.cons_append,
    List.nil_append, List.append_nil]

theorem not_mem_digits {c : Char} (hc : c.isDigit = false) (n : Nat) : c ∉ digits n := by
  intro hmem
  rw [Nat.isDigit_of_mem_toDigits (by decide) (by decide) hmem] at hc
  cases hc

theorem l_not_mem_before (ip : Ip) : 'l' ∉ beforeComment ip := by
  have hip : 'l' ∉ ip.text := fun h => absurd (ip.valid 'l' h) (by decide)
  unfold beforeComment
  simp [hip]

theorem l_not_mem_after (n : Nat) : 'l' ∉ "sban:aid=".toList ++ (digits n ++ afterComment) := by
  have hn : 'l' ∉ digits n := not_mem_digits (by decide) n
  unfold afterComment
  simp [hn]

theorem banTag_eq (n : Nat) : banTag n = 'l' :: ("sban:aid=".toList ++ digits n) := by
  unfold banTag
  simp

theorem stands_of_comment (ip : Ip) {tag comment : List Char} (h : tag <:+: comment) :
    Stands tag (drop ip comment) := by
  obtain ⟨x, y, rfl⟩ := h
  refine ⟨beforeComment ip ++ x, y ++ afterComment, ?_⟩
  rw [line_drop]
  simp only [List.append_assoc]

/-- The tag of an account stands in the rules of the accounts whose numbers begin with its digits. -/
theorem tag_stands_iff (a b : Nat) (ip : Ip) :
    Stands (banTag a) (drop ip (banTag b)) ↔ digits a <+: digits b := by
  constructor
  · rintro ⟨x, y, h⟩
    rw [line_drop, banTag_eq, banTag_eq] at h
    simp only [List.append_assoc, List.cons_append] at h
    -- the only `l` of the line is where the comment begins
    obtain ⟨-, -, h⟩ :=
      (List.append_cons_inj_of_notMem (l_not_mem_before ip) (l_not_mem_after b)).mp h.symm
    have hdigits : digits b ++ afterComment = digits a ++ y := List.append_cancel_left h
    rcases List.append_eq_append_iff.mp hdigits.symm with ⟨z, hz, -⟩ | ⟨z, hz, hafter⟩
    · exact ⟨z, hz.symm⟩
    · -- what is longer than the digits of `b` has the blank after them
      cases z with
      | nil => exact ⟨[], by rw [hz]; simp⟩
      | cons c z =>
        have hblank : c = ' ' := by
          have hhead := congrArg List.head? hafter
          unfold afterComment at hhead
          simpa using hhead.symm
        refine absurd ?_ (not_mem_digits (c := ' ') (by decide) a)
        rw [hz, hblank]
        simp
  · rintro ⟨rest, hrest⟩
    refine stands_of_comment ip ⟨[], rest, ?_⟩
    unfold banTag
    rw [List.nil_append, List.append_assoc, hrest]

theorem digits_injective {a b : Nat} (h : digits a = digits b) : a = b := by
  have hread := congrArg (fun ds => Nat.ofDigitChars 10 ds 0) h
  simpa only [digits, Nat.ofDigitChars_ten_toDigits] using hread

theorem drop_injective {a b : Nat} {ip ip' : Ip} (h : drop ip (banTag a) = drop ip' (banTag b)) :
    ip = ip' ∧ a = b := by
  unfold drop banTag at h
  simp only [List.cons.injEq, List.append_cancel_left_eq, List.append_cancel_right_eq] at h
  obtain ⟨-, htext, -, -, -, hdigits, -⟩ := h
  refine ⟨?_, digits_injective hdigits⟩
  cases ip
  cases ip'
  cases htext
  rfl

theorem ban_stands (a b : Nat) (ip : Ip) (h : digits a <+: digits b) :
    Stands (banTag a) (drop ip (banTag b)) := (tag_stands_iff a b ip).mpr h

theorem tagged_ban (ip : Ip) (a : Nat) : Tagged (drop ip (banTag a)) :=
  Or.inl (stands_of_comment ip ⟨[], digits a, rfl⟩)

theorem tagged_kick (ip : Ip) (a : Nat) : Tagged (drop ip (kickTag a)) :=
  Or.inr (stands_of_comment ip ⟨[], digits a, rfl⟩)

theorem tagged_of_stands {a : Nat} {r : Rule} (h : Stands (banTag a) r) : Tagged r :=
  Or.inl (List.IsInfix.trans ⟨[], digits a, rfl⟩ h)

/-! ## What a command does to the rules -/

/-- The removals by tag, one line after the other, leave the rules in which the tag does not stand. -/
theorem undrop_eq (tag : List Char) (rules : List Rule) :
    removeByTag tag rules = rules.filter (fun r => !Stands tag r) := by
  have hloop : ∀ (rest kept : List Rule), (∀ r ∈ kept, ¬ Stands tag r) →
      rest.foldl (fun rules r => if Stands tag r then rules.erase r else rules) (kept ++ rest) =
        kept ++ rest.filter (fun r => !Stands tag r) := by
    intro rest
    induction rest with
    | nil => simp
    | cons r rest ih =>
      intro kept hkept
      rw [List.foldl_cons]
      by_cases hr : Stands tag r
      · have herase : (kept ++ r :: rest).erase r = kept ++ rest := by
          rw [List.erase_append_right _ (fun hmem => hkept r hmem hr), List.erase_cons_head]
        rw [if_pos hr, herase, List.filter_cons_of_neg (by simpa using hr)]
        exact ih kept hkept
      · have happend : kept ++ r :: rest = (kept ++ [r]) ++ rest := by simp
        rw [if_neg hr, List.filter_cons_of_pos (by simpa using hr), happend,
          ih (kept ++ [r]) (fun q hq => ?_), List.append_assoc]
        · rfl
        · rcases List.mem_append.mp hq with hq | hq
          · exact hkept q hq
          · rw [List.mem_singleton.mp hq]
            exact hr
  exact hloop rules [] (fun r hr => absurd hr List.not_mem_nil)

/-- The new rules stand before the old ones, and each of them is one of `new`. -/
def Grows (new : Rule → Prop) (rules rules' : List Rule) : Prop :=
  ∃ added, rules' = added ++ rules ∧ ∀ r ∈ added, new r

namespace Grows

variable {new new' : Rule → Prop} {rules rules' rules'' : List Rule}

theorem refl (rules : List Rule) : Grows new rules rules :=
  ⟨[], rfl, fun _ hr => absurd hr List.not_mem_nil⟩

theorem trans (h : Grows new rules rules') (h' : Grows new rules' rules'') :
    Grows new rules rules'' := by
  obtain ⟨added, rfl, hnew⟩ := h
  obtain ⟨added', rfl, hnew'⟩ := h'
  refine ⟨added' ++ added, (List.append_assoc ..).symm, fun r hr => ?_⟩
  rcases List.mem_append.mp hr with hr | hr
  · exact hnew' r hr
  · exact hnew r hr

theorem mono (h : Grows new rules rules') (hnew : ∀ r, new r → new' r) : Grows new' rules rules' := by
  obtain ⟨added, heq, hadded⟩ := h
  exact ⟨added, heq, fun r hr => hnew r (hadded r hr)⟩

theorem mem (h : Grows new rules rules') {r : Rule} (hr : r ∈ rules) : r ∈ rules' := by
  obtain ⟨added, rfl, -⟩ := h
  exact List.mem_append.mpr (Or.inr hr)

theorem new_of_mem (h : Grows new rules rules') {r : Rule} (hr : r ∈ rules') : r ∈ rules ∨ new r := by
  obtain ⟨added, rfl, hnew⟩ := h
  rcases List.mem_append.mp hr with hr | hr
  · exact Or.inr (hnew r hr)
  · exact Or.inl hr

theorem filter_eq (h : Grows new rules rules') {p : Rule → Bool} (hp : ∀ r, new r → p r = false) :
    rules'.filter p = rules.filter p := by
  obtain ⟨added, rfl, hnew⟩ := h
  rw [List.filter_append, List.filter_eq_nil_iff.mpr (fun r hr => by simp [hp r (hnew r hr)]),
    List.nil_append]

theorem foldl {β : Type} {f : List Rule → β → List Rule} {bs : List β}
    (hf : ∀ b ∈ bs, ∀ rules, Grows new rules (f rules b)) (rules : List Rule) :
    Grows new rules (bs.foldl f rules) := by
  induction bs generalizing rules with
  | nil => exact .refl rules
  | cons b bs ih =>
    exact (hf b (List.mem_cons_self ..) rules).trans
      (ih (fun b' hb' => hf b' (List.mem_cons_of_mem b hb')) (f rules b))

end Grows

section Drops

variable {lib : IpLib} {look : Look} {rules rules' : List Rule} {ip : Ip} {comment : List Char}

theorem applyDrop_spec (h : applyDrop look ip comment rules = some rules') :
    Grows (fun r => r = drop ip comment ∧ look.accepts ip = true) rules rules' ∧
      drop ip comment ∈ rules' := by
  unfold applyDrop at h
  split at h
  · case isTrue hmem =>
    cases h
    exact ⟨.refl rules, hmem⟩
  · split at h
    · case isTrue haccepts =>
      cases h
      exact ⟨⟨[drop ip comment], rfl, fun r hr => ⟨List.mem_singleton.mp hr, haccepts⟩⟩,
        List.mem_cons_self ..⟩
    · cases h

def Adds (look : Look) (comment : List Char) (ips : List Ip) (r : Rule) : Prop :=
  ∃ ip ∈ ips, look.accepts ip = true ∧ r = drop ip comment

theorem dropAll_grows (comment : List Char) (ips : List Ip) (rules : List Rule) :
    Grows (Adds look comment ips) rules (dropAll look comment ips rules) := by
  refine .foldl (fun ip hip rules => ?_) rules
  cases happly : applyDrop look ip comment rules with
  | none => exact .refl rules
  | some rules' =>
    exact (applyDrop_spec happly).1.mono (fun r ⟨hr, haccepts⟩ => ⟨ip, hip, haccepts, hr⟩)

theorem reapplyIps_grows (comment : List Char) (ips : List Ip) (rules : List Rule) :
    Grows (Adds look comment ips) rules (reapplyIps look comment ips rules) := by
  induction ips generalizing rules with
  | nil => exact .refl rules
  | cons ip ips ih =>
    unfold reapplyIps
    split
    · exact .refl rules
    · case h_2 rules' happly =>
      refine Grows.trans ((applyDrop_spec happly).1.mono ?_) ((ih rules').mono ?_)
      · exact fun r ⟨hr, haccepts⟩ => ⟨ip, List.mem_cons_self .., haccepts, hr⟩
      · exact fun r ⟨ip', hip', hr⟩ => ⟨ip', List.mem_cons_of_mem ip hip', hr⟩

theorem mem_reapplyIps {ips : List Ip} (h : ∀ ip ∈ ips, drop ip comment ∈ rules ∨
    look.accepts ip = true) : ∀ ip ∈ ips, drop ip comment ∈ reapplyIps look comment ips rules := by
  induction ips generalizing rules with
  | nil => exact fun ip hip => absurd hip List.not_mem_nil
  | cons ip ips ih =>
    unfold reapplyIps
    cases happly : applyDrop look ip comment rules with
    | none =>
      unfold applyDrop at happly
      rcases h ip (List.mem_cons_self ..) with hmem | haccepts
      · rw [if_pos hmem] at happly
        cases happly
      · by_cases hmem : drop ip comment ∈ rules
        · rw [if_pos hmem] at happly
          cases happly
        · rw [if_neg hmem, if_pos haccepts] at happly
          cases happly
    | some rules' =>
      obtain ⟨hgrows, hmem⟩ := applyDrop_spec happly
      intro ip' hip'
      rcases List.mem_cons.mp hip' with rfl | hip'
      · exact (reapplyIps_grows comment ips rules').mem hmem
      · refine ih (fun q hq => ?_) ip' hip'
        rcases h q (List.mem_cons_of_mem ip hq) with hq | hq
        · exact Or.inl (hgrows.mem hq)
        · exact Or.inr hq

def Reapplied (lib : IpLib) (look : Look) (accounts : List Nat) (r : Rule) : Prop :=
  ∃ a ∈ accounts, look.reads a = true ∧ Adds look (banTag a) (look.droppable lib a) r

theorem reapplyAccount_grows {accounts : List Nat} {a : Nat} (ha : a ∈ accounts) (rules : List Rule) :
    Grows (Reapplied lib look accounts) rules (reapplyAccount lib look rules a) := by
  unfold reapplyAccount
  split
  · case isTrue hreads =>
    exact (reapplyIps_grows _ _ rules).mono (fun r hr => ⟨a, ha, hreads, hr⟩)
  · exact .refl rules

theorem reapplyAll_grows (accounts : List Nat) (rules : List Rule) :
    Grows (Reapplied lib look accounts) rules (reapplyAll lib look accounts rules) :=
  .foldl (fun _ ha rules => reapplyAccount_grows ha rules) rules

/-- The rule of the account's ban on the address is there, or the account's addresses are read and
this one is taken. -/
def GetsIn (look : Look) (rules : List Rule) (a : Nat) (ip : Ip) : Prop :=
  drop ip (banTag a) ∈ rules ∨ look.reads a = true ∧ look.accepts ip = true

theorem mem_reapplyAccount {a : Nat} (h : ∀ ip ∈ look.droppable lib a, GetsIn look rules a ip) :
    ∀ ip ∈ look.droppable lib a, drop ip (banTag a) ∈ reapplyAccount lib look rules a := by
  intro ip hip
  unfold reapplyAccount
  split
  · refine mem_reapplyIps (fun q hq => ?_) ip hip
    rcases h q hq with hmem | ⟨-, haccepts⟩
    · exact Or.inl hmem
    · exact Or.inr haccepts
  · case isFalse hreads =>
    rcases h ip hip with hmem | ⟨hread, -⟩
    · exact hmem
    · exact absurd hread hreads

theorem mem_reapplyAll {accounts : List Nat}
    (h : ∀ a ∈ accounts, ∀ ip ∈ look.droppable lib a, GetsIn look rules a ip) :
    ∀ a ∈ accounts, ∀ ip ∈ look.droppable lib a,
      drop ip (banTag a) ∈ reapplyAll lib look accounts rules := by
  induction accounts generalizing rules with
  | nil => exact fun a ha => absurd ha List.not_mem_nil
  | cons a accounts ih =>
    have hgrows : Grows (Reapplied lib look [a]) rules (reapplyAccount lib look rules a) :=
      reapplyAccount_grows (List.mem_cons_self ..) rules
    intro b hb ip hip
    unfold reapplyAll
    rw [List.foldl_cons]
    rcases List.mem_cons.mp hb with rfl | hb
    · refine (reapplyAll_grows accounts _).mem ?_
      exact mem_reapplyAccount (h b (List.mem_cons_self ..)) ip hip
    · refine ih (fun c hc q hq => ?_) b hb ip hip
      rcases h c (List.mem_cons_of_mem a hc) q hq with hmem | htaken
      · exact Or.inl (hgrows.mem hmem)
      · exact Or.inr htaken

theorem reapplyAll_iff (accounts : List Nat) (rules : List Rule) :
    (∀ a ∈ accounts, ∀ ip ∈ look.droppable lib a,
        drop ip (banTag a) ∈ reapplyAll lib look accounts rules) ↔
      ∀ a ∈ accounts, ∀ ip ∈ look.droppable lib a, GetsIn look rules a ip := by
  refine ⟨fun h a ha ip hip => ?_, mem_reapplyAll⟩
  rcases (reapplyAll_grows accounts rules).new_of_mem (h a ha ip hip) with hmem | hnew
  · exact Or.inl hmem
  · obtain ⟨b, -, hreads, q, -, haccepts, heq⟩ := hnew
    obtain ⟨rfl, rfl⟩ := drop_injective heq
    exact Or.inr ⟨hreads, haccepts⟩

end Drops

/-! ## Runs -/

def Event.look : Event → Option Look
  | .kick look _ => some look
  | .drop look _ => some look
  | .reapply look _ => some look
  | _ => none

structure Follows (lib : IpLib) (s : State) (e : Event) (s' : State) : Prop where
  inserted : ∀ r ∈ s'.rules, r ∈ s.rules ∨ ∃ look ip comment, e.look = some look ∧
    look.protects lib ip = false ∧ r = drop ip comment
  kept : untagged s'.rules = untagged s.rules
  lifted : ∀ a ∈ e.undropped s, ∀ ip, drop ip (banTag a) ∉ s'.rules
  others : ∀ a ∈ e.undropped s, ∀ b, b ≠ a → ∀ ip, drop ip (banTag b) ∈ s.rules →
    drop ip (banTag b) ∈ s'.rules
  enforced : ∀ look now, e = .reapply look now → ∀ a ∈ activeBanAccounts now s.bans,
    ∀ ip ∈ look.recent a, look.protects lib ip = false → drop ip (banTag a) ∈ s'.rules

structure Clear (lib : IpLib) (s : State) (e : Event) : Prop where
  /-- The digits of an account that is undropped begin no other account's number with a ban rule. -/
  apart : ∀ a ∈ e.undropped s, ∀ b ip, drop ip (banTag b) ∈ s.rules → digits a <+: digits b → b = a
  getsIn : ∀ look now, e = .reapply look now → ∀ a ∈ activeBanAccounts now s.bans,
    ∀ ip ∈ look.droppable lib a, GetsIn look s.rules a ip

section Steps

variable {lib : IpLib} {s s' : State} {e : Event}

theorem mem_droppable {look : Look} {a : Nat} {ip : Ip} :
    ip ∈ look.droppable lib a ↔ ip ∈ look.recent a ∧ look.protects lib ip = false := by
  simp [Look.droppable]

/-- What a step does to the rules: it adds drops of addresses that are not protected, takes out those
of a kick, or undrops an account; the bans may change besides. -/
theorem step_cases (h : step lib s e = some s') :
    (e.undropped s = none ∧
      (Grows (fun r => ∃ look ip a, e.look = some look ∧ look.protects lib ip = false ∧
        (r = drop ip (banTag a) ∨ r = drop ip (kickTag a))) s.rules s'.rules ∨
      ∃ ip a, s'.rules = removeExact ip (kickTag a) s.rules)) ∨
    ∃ a, e.undropped s = some a ∧ s'.rules = removeByTag (banTag a) s.rules := by
  cases e with
  | kick look a =>
    cases h
    refine Or.inl ⟨rfl, Or.inl ((dropAll_grows _ _ _).mono ?_)⟩
    rintro r ⟨ip, hip, -, rfl⟩
    exact ⟨look, ip, a, rfl, (mem_droppable.mp hip).2, Or.inr rfl⟩
  | unkick a ip =>
    cases h
    exact Or.inl ⟨rfl, Or.inr ⟨ip, a, rfl⟩⟩
  | drop look a =>
    cases h
    refine Or.inl ⟨rfl, Or.inl ((dropAll_grows _ _ _).mono ?_)⟩
    rintro r ⟨ip, hip, -, rfl⟩
    exact ⟨look, ip, a, rfl, (mem_droppable.mp hip).2, Or.inl rfl⟩
  | undrop a =>
    cases h
    exact Or.inr ⟨a, rfl, rfl⟩
  | reapply look now =>
    cases h
    refine Or.inl ⟨rfl, Or.inl ((reapplyAll_grows _ _).mono ?_)⟩
    rintro r ⟨a, -, -, ip, hip, -, rfl⟩
    exact ⟨look, ip, a, rfl, (mem_droppable.mp hip).2, Or.inl rfl⟩
  | expire now =>
    cases h
    exact Or.inl ⟨rfl, Or.inl (.refl s.rules)⟩
  | lift =>
    cases hundrops : s.undrops with
    | nil =>
      simp only [step, hundrops] at h
      cases h
    | cons a undrops =>
      simp only [step, hundrops] at h
      cases h
      exact Or.inr ⟨a, by simp [Event.undropped, hundrops], rfl⟩
  | setBans bans =>
    cases h
    exact Or.inl ⟨rfl, Or.inl (.refl s.rules)⟩

theorem untagged_removeExact (ip : Ip) (a : Nat) (rules : List Rule) :
    untagged (removeExact ip (kickTag a) rules) = untagged rules := by
  unfold untagged removeExact
  rw [List.filter_filter]
  refine List.filter_congr (fun r _ => ?_)
  by_cases hr : Tagged r
  · simp [hr]
  · have hne : r ≠ drop ip (kickTag a) := fun heq => hr (heq ▸ tagged_kick ip a)
    simp [hr, hne]

theorem untagged_undrop (a : Nat) (rules : List Rule) :
    untagged (removeByTag (banTag a) rules) = untagged rules := by
  unfold untagged
  rw [undrop_eq, List.filter_filter]
  refine List.filter_congr (fun r _ => ?_)
  by_cases hr : Tagged r
  · simp [hr]
  · have hstands : ¬ Stands (banTag a) r := fun h => hr (tagged_of_stands h)
    simp [hr, hstands]

theorem untagged_grows {rules rules' : List Rule}
    (h : Grows (fun r => ∃ ip a, r = drop ip (banTag a) ∨ r = drop ip (kickTag a)) rules rules') :
    untagged rules' = untagged rules := by
  refine h.filter_eq ?_
  rintro r ⟨ip, a, rfl | rfl⟩
  · simp [tagged_ban]
  · simp [tagged_kick]

theorem mem_undrop {a : Nat} {r : Rule} {rules : List Rule} :
    r ∈ removeByTag (banTag a) rules ↔ r ∈ rules ∧ ¬ Stands (banTag a) r := by
  rw [undrop_eq]
  simp

theorem step_always (h : step lib s e = some s') :
    (∀ r ∈ s'.rules, r ∈ s.rules ∨ ∃ look ip comment, e.look = some look ∧
        look.protects lib ip = false ∧ r = drop ip comment) ∧
      untagged s'.rules = untagged s.rules ∧
      ∀ a ∈ e.undropped s, ∀ ip, drop ip (banTag a) ∉ s'.rules := by
  rcases step_cases h with ⟨hnone, hgrows | ⟨ip, a, hrules⟩⟩ | ⟨a, hundrop, hrules⟩
  · refine ⟨fun r hr => ?_, untagged_grows (hgrows.mono ?_), by simp [hnone]⟩
    · rcases hgrows.new_of_mem hr with hr | ⟨look, ip, a, hlook, hip, rfl | rfl⟩
      · exact Or.inl hr
      · exact Or.inr ⟨look, ip, _, hlook, hip, rfl⟩
      · exact Or.inr ⟨look, ip, _, hlook, hip, rfl⟩
    · rintro r ⟨look, ip, a, -, -, hr⟩
      exact ⟨ip, a, hr⟩
  · rw [hrules]
    refine ⟨fun r hr => Or.inl (List.mem_of_mem_filter hr), untagged_removeExact ip a _, ?_⟩
    simp [hnone]
  · rw [hrules]
    refine ⟨fun r hr => Or.inl (mem_undrop.mp hr).1, untagged_undrop a _, fun b hb ip hmem => ?_⟩
    have hab : a = b := by rw [hundrop] at hb; exact Option.mem_some.mp hb
    subst hab
    exact (mem_undrop.mp hmem).2 (ban_stands a a ip List.prefix_rfl)

/-- An undrop leaves the rules of the other accounts exactly when the digits keep them apart. -/
theorem others_iff (h : step lib s e = some s') :
    (∀ a ∈ e.undropped s, ∀ b, b ≠ a → ∀ ip, drop ip (banTag b) ∈ s.rules →
        drop ip (banTag b) ∈ s'.rules) ↔
      ∀ a ∈ e.undropped s, ∀ b ip, drop ip (banTag b) ∈ s.rules → digits a <+: digits b → b = a := by
  rcases step_cases h with ⟨hnone, -⟩ | ⟨a, hundrop, hrules⟩
  · simp [hnone]
  · rw [hundrop, hrules]
    constructor
    · intro hkept c hc b ip hmem hprefix
      obtain rfl := Option.mem_some.mp hc
      by_contra hne
      exact (mem_undrop.mp (hkept a rfl b hne ip hmem)).2 (ban_stands a b ip hprefix)
    · intro hapart c hc b hne ip hmem
      obtain rfl := Option.mem_some.mp hc
      refine mem_undrop.mpr ⟨hmem, fun hstands => hne ?_⟩
      exact hapart a rfl b ip hmem ((tag_stands_iff a b ip).mp hstands)

theorem enforced_iff (h : step lib s e = some s') :
    (∀ look now, e = .reapply look now → ∀ a ∈ activeBanAccounts now s.bans,
        ∀ ip ∈ look.recent a, look.protects lib ip = false → drop ip (banTag a) ∈ s'.rules) ↔
      ∀ look now, e = .reapply look now → ∀ a ∈ activeBanAccounts now s.bans,
        ∀ ip ∈ look.droppable lib a, GetsIn look s.rules a ip := by
  refine forall_congr' (fun look => forall_congr' (fun now => forall_congr' (fun he => ?_)))
  subst he
  cases h
  rw [← reapplyAll_iff]
  refine forall_congr' (fun a => forall_congr' (fun _ => forall_congr' (fun ip => ?_)))
  rw [mem_droppable, and_imp]

theorem step_iff : (∀ s', step lib s e = some s' → Follows lib s e s') ↔ Clear lib s e := by
  constructor
  · intro h
    cases hstep : step lib s e with
    | none =>
      -- only a lift with nothing to undrop is not taken
      have hlift : e = .lift ∧ s.undrops = [] := by
        cases e with
        | lift =>
          cases hundrops : s.undrops with
          | nil => exact ⟨rfl, rfl⟩
          | cons a undrops =>
            simp only [step, hundrops] at hstep
            cases hstep
        | _ => cases hstep
      obtain ⟨rfl, hundrops⟩ := hlift
      exact ⟨by simp [Event.undropped, hundrops], fun _ _ he => by cases he⟩
    | some s' =>
      obtain ⟨-, -, -, hothers, henforced⟩ := h s' hstep
      exact ⟨(others_iff hstep).mp hothers, (enforced_iff hstep).mp henforced⟩
  · rintro ⟨hapart, hgets⟩ s' hstep
    obtain ⟨hinserted, hkept, hlifted⟩ := step_always hstep
    exact ⟨hinserted, hkept, hlifted, (others_iff hstep).mpr hapart, (enforced_iff hstep).mpr hgets⟩

end Steps

/-- The firewall follows the bans along a run exactly when nothing stands in the way of its events. -/
theorem follows_iff (lib : IpLib) (s : State) (events : List Event) :
    Along (step lib) (fun s e => ∀ s', step lib s e = some s' → Follows lib s e s') s events ↔
      Along (step lib) (Clear lib) s events :=
  ⟨Runs.along_mono (fun _ _ h => step_iff.mp h), Runs.along_mono (fun _ _ h => step_iff.mpr h)⟩

def nines : Ip where
  text := ['9', '.', '9', '.', '9', '.', '9']
  valid := by
    unfold addressChars
    simp

def banned123 : State where
  rules := [drop nines (banTag 123)]
  bans := [⟨1, some 123, true, none⟩]
  undrops := []

/-- The undrop of account 12 removes it. -/
theorem undrop_twelve : ¬ ∀ lib : IpLib, Along (step lib)
    (fun s e => ∀ s', step lib s e = some s' → Follows lib s e s') banned123 [.undrop 12] := by
  intro h
  have hfollows := (h ⟨Unit, Unit, fun _ => some (), fun _ => none, fun _ _ => false⟩).1 _ rfl
  have hkept := hfollows.others 12 rfl 123 (by decide) _ (List.mem_singleton_self _)
  exact (mem_undrop.mp hkept).2 (ban_stands 12 123 _ ⟨['3'], by decide⟩)

end LastSietch.IpBan
