import Statskboo.Ingest.HtmlEntities

/-!
# The team listing

A listing page holds one link for each team and, in the body of the link, a heading with
the title.  The scanner goes from link to link by byte offsets and looks for the title
between one link and the next.

Main results:

- Theorem {lit}`listingLoop_block`: one round of the scanner.
- Theorem {lit}`parseTeamListing_inverts`: the scanner reads back the list that a page
  renders, and on every page it ends and takes only slices that exist.
-/

namespace Statskboo
namespace Wftda

open ByteText

/-- {lit}`LINK_PREFIX`. -/
def linkPrefix : List Char :=
  "href=\"https://stats.wftda.com/team/".toList

/-- {lit}`TITLE_OPEN`. -/
def titleOpen : List Char :=
  "<h3 class=\"teamsTeam--title\">".toList

/-- {lit}`TITLE_CLOSE`. -/
def titleClose : List Char :=
  "</h3>".toList

/-- The double quote that ends a slug. -/
def quoteChar : Char :=
  Char.ofNat 0x22

/-- The decoded title in the body of a link, if it has one. -/
def bodyTitle (body : List Char) : Option (Option (List Char)) :=
  match find titleOpen body with
  | none => some none
  | some opened => do
      let inner ← sliceFrom (opened + byteLen titleOpen) body
      match find titleClose inner with
      | none => some none
      | some close => do
          let text ← sliceTo close inner
          let title ← decodeHtmlEntities (Text.trim text)
          some (some title)

/-- Collect a slug with its title, unless one of them is empty. -/
def pushPair (slug : List Char) (title : Option (List Char)) (out : List (String × String)) :
    List (String × String) :=
  match title with
  | some title =>
      if slug ≠ [] ∧ title ≠ [] then out ++ [(String.ofList slug, String.ofList title)] else out
  | none => out

/-- The scanner from a byte offset on. -/
def listingLoop (html : List Char) : Nat → Nat → List (String × String) →
    Option (List (String × String))
  | 0, _, _ => none
  | fuel + 1, cursor, out => do
      let rest ← sliceFrom cursor html
      match find linkPrefix rest with
      | none => some out
      | some rel => do
          let start := cursor + rel
          let after ← sliceFrom (start + byteLen linkPrefix) html
          match find [quoteChar] after with
          | none => some out
          | some quote => do
              let slug ← sliceTo quote after
              let bodyStart := start + byteLen linkPrefix + quote
              let fromBody ← sliceFrom bodyStart html
              let bodyEnd := match find linkPrefix fromBody with
                | some r => bodyStart + r
                | none => byteLen html
              let body ← slice bodyStart bodyEnd html
              let title ← bodyTitle body
              listingLoop html fuel bodyEnd (pushPair slug title out)

/-- The slugs and titles of a listing page, in order. -/
def parseTeamListing (html : String) : Option (List (String × String)) :=
  listingLoop html.toList (html.toList.length + 1) 0 []

/-! ## One round of the scanner -/

section Scanner

variable {html pre filler slug body rest : List Char} {fuel : Nat} {out : List (String × String)}

/-- One round: the next link, its slug, and its body up to the link after it. -/
theorem listingLoop_block
    (hhtml : html = pre ++ (filler ++ (linkPrefix ++ (slug ++ (body ++ rest)))))
    (hlink : find linkPrefix (filler ++ (linkPrefix ++ (slug ++ (body ++ rest)))) =
      some (byteLen filler))
    (hquote : find [quoteChar] (slug ++ (body ++ rest)) = some (byteLen slug))
    (hend : (find linkPrefix (body ++ rest)).getD (byteLen (body ++ rest)) = byteLen body) :
    listingLoop html (fuel + 1) (byteLen pre) out =
      (bodyTitle body).bind fun title =>
        listingLoop html fuel (byteLen (pre ++ (filler ++ (linkPrefix ++ (slug ++ body)))))
          (pushPair slug title out) := by
  have hrest : sliceFrom (byteLen pre) html = some _ := hhtml ▸ sliceFrom_append pre _
  have hafter : sliceFrom (byteLen pre + byteLen filler + byteLen linkPrefix) html =
      some (slug ++ (body ++ rest)) := by
    have h := sliceFrom_append (pre ++ (filler ++ linkPrefix)) (slug ++ (body ++ rest))
    simp only [byteLen_append, List.append_assoc] at h
    rwa [← hhtml, ← Nat.add_assoc] at h
  have hbody : sliceFrom (byteLen pre + byteLen filler + byteLen linkPrefix + byteLen slug) html =
      some (body ++ rest) := by
    have h := sliceFrom_append (pre ++ (filler ++ (linkPrefix ++ slug))) (body ++ rest)
    simp only [byteLen_append, List.append_assoc] at h
    rwa [← hhtml, ← Nat.add_assoc, ← Nat.add_assoc] at h
  have hlength : byteLen html =
      byteLen pre + byteLen filler + byteLen linkPrefix + byteLen slug + byteLen (body ++ rest) := by
    rw [hhtml]
    simp only [byteLen_append]
    omega
  have hbodyEnd : (match find linkPrefix (body ++ rest) with
      | some r => byteLen pre + byteLen filler + byteLen linkPrefix + byteLen slug + r
      | none => byteLen html) =
      byteLen pre + byteLen filler + byteLen linkPrefix + byteLen slug + byteLen body := by
    cases hfind : find linkPrefix (body ++ rest) with
    | none =>
        rw [hfind, Option.getD_none] at hend
        rw [hlength, hend]
    | some r =>
        rw [hfind, Option.getD_some] at hend
        rw [hend]
  have hslice : slice (byteLen pre + byteLen filler + byteLen linkPrefix + byteLen slug)
      (byteLen pre + byteLen filler + byteLen linkPrefix + byteLen slug + byteLen body) html =
      some body := by
    have h := slice_append (pre ++ (filler ++ (linkPrefix ++ slug))) body rest
    simp only [byteLen_append, List.append_assoc] at h
    rwa [← hhtml, ← Nat.add_assoc, ← Nat.add_assoc] at h
  have hcursor : byteLen (pre ++ (filler ++ (linkPrefix ++ (slug ++ body)))) =
      byteLen pre + byteLen filler + byteLen linkPrefix + byteLen slug + byteLen body := by
    simp only [byteLen_append]
    omega
  rw [listingLoop, hrest, hcursor]
  simp only [Option.bind_eq_bind, Option.bind_some, hlink, hafter, hquote, sliceTo_append, hbody,
    hbodyEnd, hslice]

/-! ## The scanner ends -/

theorem isSome_bodyTitle (body : List Char) : (bodyTitle body).isSome = true := by
  unfold bodyTitle
  cases hopen : find titleOpen body with
  | none => rfl
  | some opened =>
      obtain ⟨before, inner, rfl, rfl⟩ := find_eq_some hopen
      have hinner : sliceFrom (byteLen before + byteLen titleOpen) (before ++ (titleOpen ++ inner)) =
          some inner := by
        have h := sliceFrom_append (before ++ titleOpen) inner
        rwa [byteLen_append, List.append_assoc] at h
      simp only [hinner, Option.bind_eq_bind, Option.bind_some]
      cases hclose : find titleClose inner with
      | none => rfl
      | some close =>
          obtain ⟨text, after, rfl, rfl⟩ := find_eq_some hclose
          obtain ⟨title, htitle⟩ :=
            Option.isSome_iff_exists.mp (isSome_decodeHtmlEntities (Text.trim text))
          simp [sliceTo_append, htitle]

/-- The body of a link reaches to the next link, or to the end of the page. -/
theorem exists_body (s : List Char) : ∃ body rest, s = body ++ rest ∧
    (find linkPrefix (body ++ rest)).getD (byteLen (body ++ rest)) = byteLen body := by
  cases hnext : find linkPrefix s with
  | none =>
      refine ⟨s, [], (List.append_nil s).symm, ?_⟩
      rw [List.append_nil, hnext, Option.getD_none]
  | some r =>
      obtain ⟨body, post, hbody, rfl⟩ := find_eq_some hnext
      refine ⟨body, linkPrefix ++ post, hbody, ?_⟩
      rw [← hbody, hnext, Option.getD_some]

/-- From every place in every page the scanner ends, and all of its slices exist. -/
theorem isSome_listingLoop (hhtml : html = pre ++ rest) (hfuel : rest.length < fuel)
    (out : List (String × String)) : (listingLoop html fuel (byteLen pre) out).isSome = true := by
  induction fuel generalizing pre rest out with
  | zero => exact absurd hfuel (Nat.not_lt_zero _)
  | succ fuel ih =>
      have hrest : sliceFrom (byteLen pre) html = some rest := hhtml ▸ sliceFrom_append pre rest
      cases hlink : find linkPrefix rest with
      | none =>
          rw [listingLoop, hrest]
          simp [hlink]
      | some rel =>
          obtain ⟨filler, after, rfl, rfl⟩ := find_eq_some hlink
          have hafter : sliceFrom (byteLen pre + byteLen filler + byteLen linkPrefix) html =
              some after := by
            have h := sliceFrom_append (pre ++ (filler ++ linkPrefix)) after
            simp only [byteLen_append, List.append_assoc] at h
            rwa [← hhtml, ← Nat.add_assoc] at h
          cases hquote : find [quoteChar] after with
          | none =>
              rw [listingLoop, hrest]
              simp [hlink, hafter, hquote]
          | some quote =>
              obtain ⟨slug, tail, rfl, rfl⟩ := find_eq_some hquote
              obtain ⟨body, rest', hsplit, hend⟩ := exists_body ([quoteChar] ++ tail)
              rw [hsplit] at hhtml hlink hquote
              obtain ⟨title, htitle⟩ := Option.isSome_iff_exists.mp (isSome_bodyTitle body)
              rw [listingLoop_block hhtml hlink hquote hend, htitle, Option.bind_some]
              refine ih (by simp [hhtml] : html = _ ++ rest') ?_ _
              have hlength := congrArg List.length hsplit
              have hpositive : 0 < linkPrefix.length := by decide
              simp only [List.length_append] at hfuel hlength
              omega

/-- On every page the scanner ends, and it takes only slices that exist. -/
theorem isSome_parseTeamListing (html : String) : (parseTeamListing html).isSome = true :=
  isSome_listingLoop (List.nil_append html.toList).symm (Nat.lt_succ_self _) []

end Scanner

/-! ## Pages that render a list -/

/-- The block of a team: its link, some markup, and the heading with its title. -/
structure TitledBlock where
  slug : List Char
  title : List Char
  filler : List Char
  before : List Char
  text : List Char
  after : List Char
  rest : List Char
  slug_ne_nil : slug ≠ []
  quote_notMem : quoteChar ∉ slug
  title_ne_nil : title ≠ []
  trimmed : Text.Trimmed title
  encodes : Encodes title text
  before_white : ∀ c ∈ before, Text.isWhitespace c = true
  after_white : ∀ c ∈ after, Text.isWhitespace c = true
  link_filler : ¬linkPrefix <:+: filler
  open_filler : ¬titleOpen <:+: filler
  link_rest : ¬linkPrefix <:+: rest

/-- A link without a heading. -/
structure UntitledBlock where
  slug : List Char
  filler : List Char
  quote_notMem : quoteChar ∉ slug
  link_filler : ¬linkPrefix <:+: filler
  open_filler : ¬titleOpen <:+: filler

/-- A block of a listing page. -/
inductive Block where
  | titled (b : TitledBlock)
  | untitled (b : UntitledBlock)

namespace Block

/-- The slug in the link of a block. -/
def slug : Block → List Char
  | titled b => b.slug
  | untitled b => b.slug

/-- What follows the slug. -/
def body : Block → List Char
  | titled b =>
      quoteChar :: (b.filler ++ (titleOpen ++ (b.before ++ (b.text ++ (b.after ++
        (titleClose ++ b.rest))))))
  | untitled b => quoteChar :: b.filler

/-- The markup of a block. -/
def html (b : Block) : List Char :=
  linkPrefix ++ (b.slug ++ b.body)

/-- The title of a block. -/
def title? : Block → Option (List Char)
  | titled b => some b.title
  | untitled _ => none

/-- The slug and the title that a block stands for. -/
def pair? : Block → Option (String × String)
  | titled b => some (String.ofList b.slug, String.ofList b.title)
  | untitled _ => none

theorem quote_notMem (b : Block) : quoteChar ∉ b.slug := by
  cases b with
  | titled b => exact b.quote_notMem
  | untitled b => exact b.quote_notMem

theorem exists_body_eq_cons (b : Block) : ∃ s, b.body = quoteChar :: s := by
  cases b with
  | titled b => exact ⟨_, rfl⟩
  | untitled b => exact ⟨_, rfl⟩

end Block

/-- A page that renders a list: markup without a link, then blocks. -/
def Renders (pairs : List (String × String)) (html : String) : Prop :=
  ∃ (filler : List Char) (blocks : List Block), ¬linkPrefix <:+: filler ∧
    pairs = blocks.filterMap Block.pair? ∧ html.toList = filler ++ blocks.flatMap Block.html

theorem borderFree_linkPrefix : BorderFree linkPrefix := by
  decide +kernel

theorem borderFree_titleOpen : BorderFree titleOpen := by
  decide +kernel

theorem borderFree_titleClose : BorderFree titleClose := by
  decide +kernel

/-- A double quote before a text does not begin a marker that begins otherwise. -/
theorem not_infix_quote_cons {marker s : List Char} (hhead : marker.head? ≠ some quoteChar)
    (hne : marker ≠ []) (h : ¬marker <:+: s) : ¬marker <:+: quoteChar :: s := by
  intro hinfix
  rcases List.infix_cons_iff.mp hinfix with hprefix | hs
  · obtain ⟨c, m, rfl⟩ := List.exists_cons_of_ne_nil hne
    obtain ⟨rfl, -⟩ := List.cons_prefix_cons.mp hprefix
    exact hhead rfl
  · exact h hs

theorem white_notMem {d : Char} {s : List Char} (hd : Text.isWhitespace d = false)
    (h : ∀ c ∈ s, Text.isWhitespace c = true) : d ∉ s := by
  intro hmem
  rw [h d hmem] at hd
  cases hd

namespace TitledBlock

/-- What stands between the marks of the heading. -/
def heading (b : TitledBlock) : List Char :=
  b.before ++ (b.text ++ b.after)

variable (b : TitledBlock)

theorem notMem_heading {d : Char} (hd : d = '<' ∨ d = Char.ofNat 0x22) : d ∉ b.heading := by
  have hwhite : Text.isWhitespace d = false := by rcases hd with rfl | rfl <;> decide
  intro hmem
  rcases List.mem_append.mp hmem with hmem | hmem
  · exact white_notMem hwhite b.before_white hmem
  · rcases List.mem_append.mp hmem with hmem | hmem
    · exact b.encodes.notMem hd hmem
    · exact white_notMem hwhite b.after_white hmem

theorem body_eq : (Block.titled b).body =
    (quoteChar :: b.filler) ++ (titleOpen ++ (b.heading ++ (titleClose ++ b.rest))) := by
  simp [Block.body, heading]

/-- No link begins in the body of a block. -/
theorem link_body : ¬linkPrefix <:+: (Block.titled b).body := by
  have hlt : '<' ∉ linkPrefix := by decide +kernel
  have hgt : '>' ∉ linkPrefix := by decide +kernel
  have hquot : quoteChar ∈ linkPrefix := by decide +kernel
  have hne : linkPrefix ≠ [] := by decide +kernel
  have hopen : titleOpen = '<' :: ("h3 class=\"teamsTeam--title\"".toList ++ ['>']) := by
    decide +kernel
  have hclose : titleClose = '<' :: ("/h3".toList ++ ['>']) := by decide +kernel
  have hsplit : (Block.titled b).body = (quoteChar :: b.filler) ++ '<' ::
      ("h3 class=\"teamsTeam--title\"".toList ++ '>' :: (b.heading ++ '<' ::
        ("/h3".toList ++ '>' :: b.rest))) := by
    rw [body_eq, hopen, hclose]
    simp
  rw [hsplit]
  refine not_infix_append_cons hlt hne
    (not_infix_quote_cons (by decide +kernel) hne b.link_filler) ?_
  refine not_infix_append_cons hgt hne (by decide +kernel) ?_
  refine not_infix_append_cons hlt hne (fun h => ?_) ?_
  · exact b.notMem_heading (Or.inr rfl) (h.subset hquot)
  · exact not_infix_append_cons hgt hne (by decide +kernel) b.link_rest

/-- The title of a block is found and decoded. -/
theorem bodyTitle_body : bodyTitle (Block.titled b).body = some (some b.title) := by
  have hfindOpen : find titleOpen (Block.titled b).body =
      some (byteLen (quoteChar :: b.filler)) := by
    rw [body_eq]
    exact find_append borderFree_titleOpen (by decide +kernel)
      (not_infix_quote_cons (by decide +kernel) (by decide +kernel) b.open_filler) _
  have hinner : sliceFrom (byteLen (quoteChar :: b.filler) + byteLen titleOpen)
      (Block.titled b).body = some (b.heading ++ (titleClose ++ b.rest)) := by
    have h := sliceFrom_append ((quoteChar :: b.filler) ++ titleOpen)
      (b.heading ++ (titleClose ++ b.rest))
    rw [byteLen_append, List.append_assoc] at h
    rwa [body_eq]
  have hfindClose : find titleClose (b.heading ++ (titleClose ++ b.rest)) =
      some (byteLen b.heading) := by
    have hlt : '<' ∈ titleClose := by decide +kernel
    exact find_append borderFree_titleClose (by decide +kernel)
      (fun h => b.notMem_heading (Or.inl rfl) (h.subset hlt)) _
  have htrim : Text.trim b.heading = b.text :=
    Text.trim_append b.before_white b.after_white (b.encodes.ne_nil b.title_ne_nil)
      (b.encodes.trimmed b.trimmed)
  rw [bodyTitle, hfindOpen]
  simp only [hinner, hfindClose, sliceTo_append, htrim, decodeHtmlEntities_of_encodes b.encodes,
    Option.bind_eq_bind, Option.bind_some]

end TitledBlock

namespace Block

theorem link_body (b : Block) : ¬linkPrefix <:+: b.body := by
  cases b with
  | titled b => exact b.link_body
  | untitled b =>
      exact not_infix_quote_cons (by decide +kernel) (by decide +kernel) b.link_filler

/-- The scanner finds in the body of a block what the block stands for. -/
theorem bodyTitle_body (b : Block) : bodyTitle b.body = some b.title? := by
  cases b with
  | titled b => exact b.bodyTitle_body
  | untitled b =>
      have hnone : find titleOpen (untitled b).body = none :=
        find_eq_none.mpr (not_infix_quote_cons (by decide +kernel) (by decide +kernel) b.open_filler)
      rw [bodyTitle, hnone]
      rfl

theorem pushPair_title? (b : Block) (out : List (String × String)) :
    pushPair b.slug b.title? out = out ++ b.pair?.toList := by
  cases b with
  | titled b => exact if_pos ⟨b.slug_ne_nil, b.title_ne_nil⟩
  | untitled b => exact (List.append_nil out).symm

end Block

theorem length_le_length_html (blocks : List Block) :
    blocks.length ≤ (blocks.flatMap Block.html).length := by
  have hpositive : 0 < linkPrefix.length := by decide +kernel
  induction blocks with
  | nil => exact Nat.zero_le _
  | cons b blocks ih =>
      rw [List.flatMap_cons, Block.html, List.length_append, List.length_append, List.length_cons]
      omega

/-- From the start of a block on, the scanner collects what the blocks stand for. -/
theorem listingLoop_blocks {html pre filler : List Char} {blocks : List Block} {fuel : Nat}
    (hhtml : html = pre ++ (filler ++ blocks.flatMap Block.html)) (hfiller : ¬linkPrefix <:+: filler)
    (hfuel : blocks.length < fuel) (out : List (String × String)) :
    listingLoop html fuel (byteLen pre) out = some (out ++ blocks.filterMap Block.pair?) := by
  induction blocks generalizing pre filler fuel out with
  | nil =>
      obtain ⟨fuel, rfl⟩ := Nat.exists_eq_succ_of_ne_zero (Nat.ne_zero_of_lt hfuel)
      rw [List.flatMap_nil, List.append_nil] at hhtml
      have hrest : sliceFrom (byteLen pre) html = some filler := hhtml ▸ sliceFrom_append pre filler
      rw [listingLoop, hrest]
      simp [find_eq_none.mpr hfiller]
  | cons b blocks ih =>
      obtain ⟨fuel, rfl⟩ := Nat.exists_eq_succ_of_ne_zero (Nat.ne_zero_of_lt hfuel)
      have hne : linkPrefix ≠ [] := by decide +kernel
      have hsplit : (b :: blocks).flatMap Block.html =
          linkPrefix ++ (b.slug ++ (b.body ++ blocks.flatMap Block.html)) := by
        rw [List.flatMap_cons, Block.html, List.append_assoc, List.append_assoc]
      rw [hsplit] at hhtml
      have hlink := find_append borderFree_linkPrefix hne hfiller
        (b.slug ++ (b.body ++ blocks.flatMap Block.html))
      have hquote : find [quoteChar] (b.slug ++ (b.body ++ blocks.flatMap Block.html)) =
          some (byteLen b.slug) := by
        obtain ⟨s, hs⟩ := b.exists_body_eq_cons
        rw [hs, List.cons_append]
        exact find_singleton b.quote_notMem _
      have hend : (find linkPrefix (b.body ++ blocks.flatMap Block.html)).getD
          (byteLen (b.body ++ blocks.flatMap Block.html)) = byteLen b.body := by
        cases blocks with
        | nil =>
            rw [List.flatMap_nil, List.append_nil, find_eq_none.mpr b.link_body, Option.getD_none]
        | cons b' blocks =>
            rw [List.flatMap_cons, Block.html, List.append_assoc,
              find_append borderFree_linkPrefix hne b.link_body, Option.getD_some]
      rw [listingLoop_block hhtml hlink hquote hend, b.bodyTitle_body, Option.bind_some,
        b.pushPair_title?]
      have hhtml' : html = (pre ++ (filler ++ (linkPrefix ++ (b.slug ++ b.body)))) ++
          ([] ++ blocks.flatMap Block.html) := by
        rw [hhtml]
        simp
      have hnil : ¬linkPrefix <:+: [] := fun h => hne (List.eq_nil_of_infix_nil h)
      rw [ih hhtml' hnil (Nat.lt_of_succ_lt_succ hfuel), List.append_assoc]
      congr 2
      cases hpair : b.pair? <;> simp [hpair]

/-- The scanner reads back the list that a page renders: every slug with its own title, each
entity decoded once.  On every page it ends, and it takes only slices that exist. -/
theorem parseTeamListing_inverts :
    (∀ (pairs : List (String × String)) (html : String), Renders pairs html →
      parseTeamListing html = some pairs) ∧
    ∀ html : String, (parseTeamListing html).isSome = true := by
  refine ⟨?_, isSome_parseTeamListing⟩
  rintro pairs html ⟨filler, blocks, hfiller, rfl, hhtml⟩
  have hfuel : blocks.length < html.toList.length + 1 := by
    have hlength := length_le_length_html blocks
    rw [hhtml, List.length_append]
    omega
  have hhtml' : html.toList = [] ++ (filler ++ blocks.flatMap Block.html) := hhtml
  exact listingLoop_blocks hhtml' hfiller hfuel []

/-! ## A page with one titled team -/

section Example

/-- A link without a heading. -/
def orphanBlock : UntitledBlock where
  slug := "orphan".toList
  filler := ">no title here</a>".toList
  quote_notMem := by decide +kernel
  link_filler := by decide +kernel
  open_filler := by decide +kernel

/-- A heading with an entity. -/
def realBlock : TitledBlock where
  slug := "real".toList
  title := "R&R".toList
  filler := ">".toList
  before := [' ']
  text := "R&amp;R".toList
  after := []
  rest := "</a>".toList
  slug_ne_nil := by decide +kernel
  quote_notMem := by decide +kernel
  title_ne_nil := by decide +kernel
  trimmed := by decide +kernel
  encodes :=
    .plain (by decide) (by decide) (by decide)
      (.entity (.named (by decide : ("amp", '&') ∈ namedEntities)) (by decide +kernel)
        (.plain (by decide) (by decide) (by decide) .nil))
  before_white := List.all_eq_true.mp (by decide)
  after_white := List.all_eq_true.mp (by decide)
  link_filler := by decide +kernel
  open_filler := by decide +kernel
  link_rest := by decide +kernel

/-- A page of both blocks. -/
def twoBlocks : String :=
  "<a href=\"https://stats.wftda.com/team/orphan\">no title here</a>" ++
    "href=\"https://stats.wftda.com/team/real\"><h3 class=\"teamsTeam--title\"> R&amp;R</h3></a>"

/-- The title goes to its own slug. -/
theorem parseTeamListing_twoBlocks : parseTeamListing twoBlocks = some [("real", "R&R")] :=
  parseTeamListing_inverts.1 _ _ ⟨"<a ".toList, [.untitled orphanBlock, .titled realBlock],
    by decide +kernel, rfl, by decide +kernel⟩

end Example

end Wftda
end Statskboo
