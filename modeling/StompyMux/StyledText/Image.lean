import StompyMux.StyledText.Links
import StompyMux.Telnet.Mxp

namespace StompyMux.StyledText

open Library.Text
open StompyMux.Telnet

inductive Align
  | Left
  | Right
  | Top
  | Middle
  | Bottom
  deriving DecidableEq

def Align.name : Align → List Char
  | .Left => "left".toList
  | .Right => "right".toList
  | .Top => "top".toList
  | .Middle => "middle".toList
  | .Bottom => "bottom".toList

def Align.parse (s : List Char) : Option Align :=
  [Align.Left, .Right, .Top, .Middle, .Bottom].find? (fun a => a.name == toAsciiLowercase s)

-- The text of the span an image decorates is shown where the image cannot be.
structure Image where
  source : List Char
  width : Option Nat
  height : Option Nat
  align : Option Align
  deriving DecidableEq

namespace Image

-- The final path segment.
def fileName (image : Image) : List Char :=
  (image.source.reverse.takeWhile (· != '/')).reverse

-- Everything through the final slash.
def baseUrl (image : Image) : List Char := (image.source.reverse.dropWhile (· != '/')).reverse

def validate (image : Image) : Except Error Unit := do
  ensure (external image.source) "image source must be a percent-encoded http, https or ftp URL"
  ensure (!(image.source.contains '?' || image.source.contains '#'))
    "image source cannot carry a query or fragment"
  let body := ((splitOnceAt "://".toList image.source).map Prod.snd).getD []
  ensure ((splitOnce '/' body).any (fun parts => !parts.1.isEmpty && !parts.2.isEmpty))
    "image source must include a host and a file path"
  ensure (!image.fileName.isEmpty) "image source must end with a file name"

def isValid (image : Image) : Bool := image.validate.isOk

def fromUrl (source : List Char) : Except Error Image := do
  let image : Image := ⟨source, none, none, none⟩
  image.validate
  return image

def parseProperty (image : Image) (d : Directive) : Except Error Image := do
  if d.name = "width".toList ∨ d.name = "height".toList then
    if !d.quoted && !d.text.isEmpty && d.text.all Char.isDigit then
      let pixels ← parsed (parseUnsigned 10 (2 ^ 32 - 1) d.text)
      if 1 ≤ pixels ∧ pixels ≤ 4096 then
        if d.name = "width".toList then return { image with width := some pixels }
        else return { image with height := some pixels }
      else bail (d.name ++ " is out of range".toList)
    else bail (d.name ++ " must be an unsigned decimal integer".toList)
  else if d.name = "align".toList then
    ensure (!d.quoted) "align cannot be quoted"
    match Align.parse d.text with
    | some align => return { image with align := some align }
    | none => bail "invalid align".toList
  else bail ("unknown image property ".toList ++ d.name)

def parse (ds : List Directive) : Except Error Image :=
  match ds with
  | [] => bail "missing image source".toList
  | d :: ds =>
      if d.name ≠ "image".toList then bail "missing image source".toList
      else do
        ensure d.quoted "image source must be quoted"
        let image ← fromUrl d.text
        ds.foldlM parseProperty image

def attribute? (lead : String) : Option (List Char) → List Char
  | none => []
  | some value => lead.toList ++ value

-- The tag without its brackets.
def tagText (image : Image) : List Char :=
  "IMAGE ".toList ++ image.fileName ++ " URL=".toList ++ Mxp.quote image.baseUrl ++
    attribute? " W=" (image.width.map decimal) ++ attribute? " H=" (image.height.map decimal) ++
    attribute? " ALIGN=" (image.align.map Align.name)

def mxpTag (image : Image) : List Char :=
  Mxp.secureTag (['<'] ++ image.tagText ++ ['>'])

theorem isValid_external (image : Image) (h : image.isValid) : external image.source := by
  unfold isValid at h
  cases hvalid : image.validate with
  | error error => simp [hvalid, Except.isOk, Except.toBool] at h
  | ok _ =>
      obtain ⟨_, hfirst, _⟩ := bind_eq_ok _ _ _ hvalid
      exact ensure_eq_ok hfirst

theorem isValid_isUri (image : Image) (h : image.isValid) : IsUri image.source :=
  external_isUri _ (image.isValid_external h)

theorem mem_fileName (image : Image) (c : Char) (hc : c ∈ image.fileName) : c ∈ image.source := by
  rw [fileName, List.mem_reverse] at hc
  exact List.mem_reverse.mp ((List.takeWhile_prefix _).subset hc)

theorem Printable.isTagText (c : Char) (hc : Printable c) : Mxp.isTagText c := by
  have hcontrol : isControl c = false := by
    have hlow := hc.low
    have hhigh := hc.high
    simp only [isControl, Bool.or_eq_false_iff, Bool.and_eq_false_iff, decide_eq_false_iff_not]
    omega
  simp [Mxp.isTagText, hcontrol, hc.opening, hc.closing]

theorem align_isTagText (align : Align) : ∀ c ∈ align.name, Mxp.isTagText c := by
  cases align <;> decide

theorem attribute_isTagText (lead : String) (value : Option (List Char))
    (hl : ∀ c ∈ lead.toList, Mxp.isTagText c) (hv : ∀ text ∈ value, ∀ c ∈ text, Mxp.isTagText c) :
    ∀ c ∈ attribute? lead value, Mxp.isTagText c := by
  cases value with
  | none => simp [attribute?]
  | some text => exact List.forall_mem_append.mpr ⟨hl, hv text rfl⟩

theorem decimal_isTagText {n : Nat} {c : Char} (hc : c ∈ decimal n) : Mxp.isTagText c := by
  apply Printable.isTagText
  apply isUriChar_printable
  simp [isUriChar, Char.isAlphanum, isDigit_of_mem_decimal n c hc]

-- Nothing an image can name ends its tag.
theorem isTagText_tagText (image : Image) (h : image.isValid) :
    ∀ c ∈ image.tagText, Mxp.isTagText c := by
  have hname : ∀ c ∈ image.fileName, Mxp.isTagText c := by
    intro c hc
    exact Printable.isTagText c
      (isUriChar_printable c (image.isValid_isUri h c (image.mem_fileName c hc)))
  have hpixels : ∀ size : Option Nat, ∀ text ∈ size.map decimal, ∀ c ∈ text,
      Mxp.isTagText c := by
    intro size text htext c hc
    obtain ⟨n, -, htext⟩ := Option.map_eq_some_iff.mp htext
    exact decimal_isTagText (by rwa [htext])
  have halign : ∀ text ∈ image.align.map Align.name, ∀ c ∈ text, Mxp.isTagText c := by
    intro text htext c hc
    obtain ⟨align, -, htext⟩ := Option.map_eq_some_iff.mp htext
    exact align_isTagText align c (by rwa [htext])
  have hwidth := attribute_isTagText " W=" _ (by decide) (hpixels image.width)
  have hheight := attribute_isTagText " H=" _ (by decide) (hpixels image.height)
  have haligned := attribute_isTagText " ALIGN=" _ (by decide) halign
  have hlead : ∀ c ∈ "IMAGE ".toList, Mxp.isTagText c := by decide
  have hurl : ∀ c ∈ " URL=".toList, Mxp.isTagText c := by decide
  have hquote := Mxp.isTagText_quote image.baseUrl
  intro c hc
  unfold tagText at hc
  repeat rw [List.mem_append] at hc
  rcases hc with (((((hc | hc) | hc) | hc) | hc) | hc) | hc
  · exact hlead c hc
  · exact hname c hc
  · exact hurl c hc
  · exact hquote c hc
  · exact hwidth c hc
  · exact hheight c hc
  · exact haligned c hc

end Image

end StompyMux.StyledText
