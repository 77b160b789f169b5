/-
The camera driver, `drivers/char/jzchar/cim.c`: its frame buffer.

The size of a frame is set by an `ioctl`.  The buffer is allocated anew when the frame is
larger than the largest image, by a test that multiplies in another order than the size is
computed.  All products are of 32 bits and wrap; `int` is signed, so the quotients are too.

Whether pages are available is an argument of each call.  What the camera controller does,
sleeping until a frame is there and `IOCTL_CIM_CONFIG`, which does not touch the buffer, are
left out.
-/
import Mathlib.Data.BitVec

namespace Dingoo.Cim

def EFAULT : Int := 14
def ENOMEM : Int := 12
def EINVAL : Int := 22

def MAX_IMAGE_WIDTH : BitVec 32 := 640
def MAX_IMAGE_HEIGHT : BitVec 32 := 480
def MAX_IMAGE_BPP : BitVec 32 := 16
def MAX_FRAME_SIZE : BitVec 32 := (MAX_IMAGE_WIDTH * MAX_IMAGE_HEIGHT * MAX_IMAGE_BPP).sdiv 8

def CIM_CMD_EOFINT : BitVec 32 := 1 <<< 30
def CIM_CMD_STOP : BitVec 32 := 1 <<< 28
def CIM_CMD_LEN_MASK : BitVec 32 := 0xffffff

/-- `img_param_t` -/
structure ImgParam where
  width : BitVec 32
  height : BitVec 32
  bpp : BitVec 32
deriving DecidableEq, Repr

/-- `struct cim_desc` -/
structure CimDesc where
  nextdesc : BitVec 32
  framebuf : BitVec 32
  frameid : BitVec 32
  dmacmd : BitVec 32
deriving DecidableEq, Repr

/-- A block of `2 ^ order` pages. -/
structure Pages where
  address : BitVec 32
  order : Nat
deriving DecidableEq, Repr

def Pages.size (p : Pages) : Nat := 4096 * 2 ^ p.order

/-- `struct cim_device` with the image parameters. -/
structure CimDevice where
  img : ImgParam
  framebuf : Option Pages
  frameSize : BitVec 32
  pageOrder : Nat
  frameDesc : CimDesc
  /-- `&cim_dev->frame_desc` -/
  descAddr : BitVec 32
  /-- what was given back with `free_pages` -/
  freed : List Pages
deriving DecidableEq, Repr

/-- `virt_to_phys` -/
def virtToPhys (address : BitVec 32) : BitVec 32 := address - 0x80000000

/-- The loop of `get_order`, with at most `n` turns left. -/
def orderLoop : Nat → BitVec 32 → Nat → Nat
  | 0, _, order => order
  | n + 1, size, order => if size >>> 1 = 0 then order else orderLoop n (size >>> 1) (order + 1)

/-- `get_order` -/
def getOrder (size : BitVec 32) : Nat := orderLoop 32 ((size - 1) >>> 11) 0

/-- `img_width * img_height * (img_bpp/8)` -/
def ImgParam.frameSize (i : ImgParam) : BitVec 32 := i.width * i.height * i.bpp.sdiv 8

/-- `(img_width * img_height * img_bpp/8) > MAX_FRAME_SIZE` -/
def ImgParam.tooLarge (i : ImgParam) : Bool :=
  ((i.width * i.height * i.bpp).sdiv 8).toInt > MAX_FRAME_SIZE.toInt

/-- The command stops after a frame is captured. -/
def dmaCommand (frameSize : BitVec 32) : BitVec 32 :=
  CIM_CMD_EOFINT ||| CIM_CMD_STOP ||| (frameSize >>> 2)

/-- `cim_fb_destroy` -/
def cimFbDestroy (c : CimDevice) : CimDevice :=
  match c.framebuf with
  | none => c
  | some p => { c with framebuf := none, freed := ⟨p.address, c.pageOrder⟩ :: c.freed }

/-- `cim_fb_alloc`, with the address of the pages if there are any. -/
def cimFbAlloc (page : Option (BitVec 32)) (c : CimDevice) : Int × CimDevice :=
  let order := getOrder c.img.frameSize
  let c := { c with
    frameSize := c.img.frameSize, pageOrder := order
    framebuf := page.map fun address => ⟨address, order⟩ }
  match page with
  | none => (-ENOMEM, c)
  | some address =>
    (0, { c with
      frameDesc :=
        { nextdesc := virtToPhys c.descAddr
          framebuf := virtToPhys address
          frameid := 0x52052018
          dmacmd := dmaCommand c.frameSize } })

/-- The end of `IOCTL_SET_IMG_PARAM`. -/
def setFrame (c : CimDevice) : CimDevice :=
  { c with
    frameSize := c.img.frameSize
    frameDesc := { c.frameDesc with dmacmd := dmaCommand c.img.frameSize } }

/-- `IOCTL_SET_IMG_PARAM` of `cim_ioctl`; no parameters if they cannot be read. -/
def cimIoctl (c : CimDevice) (arg : Option ImgParam) (page : Option (BitVec 32)) :
    Int × CimDevice :=
  match arg with
  | none => (-EFAULT, c)
  | some i =>
    let c := { c with img := i }
    if i.tooLarge then
      let alloc := cimFbAlloc page (cimFbDestroy c)
      if alloc.1 < 0 then (-ENOMEM, alloc.2) else (0, setFrame alloc.2)
    else (0, setFrame c)

/-- The part of `cim_init` that succeeds: `dev` is what `kmalloc` returned. -/
def cimInit (dev : CimDevice) (address : BitVec 32) : CimDevice :=
  (cimFbAlloc (some address)
    { dev with img := ⟨MAX_IMAGE_WIDTH, MAX_IMAGE_HEIGHT, MAX_IMAGE_BPP⟩ }).2

/-- What a capture does: the bytes written back from the buffer on, the descriptor the controller
is given, and the bytes copied to the user. -/
structure Capture where
  wback : BitVec 32
  da : BitVec 32
  copied : BitVec 32
deriving DecidableEq, Repr

/-- `cim_start_dma`.  The operator `^` is the exclusive or. -/
def cimStartDma (c : CimDevice) : Capture where
  wback := (2 ^^^ BitVec.ofNat 32 c.pageOrder) * 4096
  da := virtToPhys c.descAddr
  copied := c.frameSize

/-- `cim_read`; it returns the number of bytes copied. -/
def cimRead (c : CimDevice) (size : BitVec 32) : Except Int Capture :=
  if size.toNat < c.frameSize.toNat then .error (-EINVAL) else .ok (cimStartDma c)

end Dingoo.Cim
