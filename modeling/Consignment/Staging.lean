import Consignment.Digest
import Consignment.Document
import Consignment.Invoice.Encode

namespace Consignment

/-!
# The staging directory

A package is staged by writing its invoice and the contents of its parcels into a
directory of its own, which is named by the digest of the package's id.  Contents are
named by their digests, so a content that is there already is not written again.

A parcel with the do-not-stage annotation belongs to another package and is not
written.
-/

namespace Staging

def directoryOf (staging : Path) (id : PackageId) : Path :=
  staging.join (Digest.ofText id.text)

def invoiceOf (staging : Path) (id : PackageId) : Path :=
  (directoryOf staging id).join "invoice.yml"

def contentsOf (staging : Path) (id : PackageId) : Path :=
  (directoryOf staging id).join "parcels"

def contentFile (contents : Path) (label : Label) : Path :=
  contents.join (label.sha256 ++ ".dat")

/-- Write the content of a parcel unless it is there; the number says how many contents
were written. -/
def writeContent (d : Disk) (source contents : Path) (label : Label) :
    Disk × Except Failure Nat :=
  let target := contentFile contents label
  match d.holds target with
  | .error fault => (d, .error (.escaped fault))
  | .ok true => (d, .ok 0)
  | .ok false =>
    let found := source.join label.name
    match d.copyFile found target with
    | (d, .ok ()) => (d, .ok 1)
    | (d, .error (.disk fault)) =>
      (d, .error (.files (.notCopied label.name found.text target.text (.disk fault))))
    | (d, .error fault) => (d, .error (.escaped fault))

/-- Write the contents of parcels up to the first that cannot be written. -/
def writeContents (d : Disk) (source contents : Path) : List Parcel → Disk × Except Failure Nat
  | [] => (d, .ok 0)
  | parcel :: rest =>
    if parcel.isReference then
      writeContents d source contents rest
    else
      match writeContent d source contents parcel.label with
      | (d, .error failure) => (d, .error failure)
      | (d, .ok written) =>
        match writeContents d source contents rest with
        | (d, .error failure) => (d, .error failure)
        | (d, .ok more) => (d, .ok (written + more))

def stagedNotice (id : PackageId) (written : Nat) (directory : Path) : Notice :=
  Topic.staging.notice Level.info
    ("已暂存 " ++ id.text ++ ": " ++ toString written ++ " 个 parcel -> " ++ directory.text)

/-- Stage a package whose contents are in a source directory.  The result is the
directory of the package.  What was written before a fault stays. -/
def write (d : Disk) (source staging : Path) (inv : Invoice) : Disk × Report Path :=
  let directory := directoryOf staging inv.id
  let contents := contentsOf staging inv.id
  match d.ensureDirectory contents with
  | (d, .error fault) => (d, .fail (.escaped fault))
  | (d, .ok ()) =>
    match writeContents d source contents inv.parcels with
    | (d, .error failure) => (d, .fail failure)
    | (d, .ok written) =>
      let (d, saved) := Document.save d (invoiceOf staging inv.id) inv.toValue
      (d, do
        saved.mapFailure fun
          | .escaped (.disk fault) => .files (.invoiceNotWritten directory.text (.disk fault))
          | failure => failure
        Report.note (stagedNotice inv.id written directory)
        return directory)

end Staging
end Consignment
