import Sift.Unicode.Runs

/-!
# Scripts

Each character is of one script, or common to several. Some are used with a known list of scripts
all the same: those lists are the script extensions. Scripts have a code of four letters and a
long name.
-/

namespace Sift.Unicode

/-! ## 1. Names -/

/-- The long names of the scripts, each with its code. -/
def scriptNames : List (String × String) :=
  [("Adlam", "Adlm"), ("Ahom", "Ahom"), ("Anatolian_Hieroglyphs", "Hluw"), ("Arabic", "Arab"),
   ("Armenian", "Armn"), ("Avestan", "Avst"), ("Balinese", "Bali"), ("Bamum", "Bamu"),
   ("Bassa_Vah", "Bass"), ("Batak", "Batk"), ("Bengali", "Beng"), ("Bhaiksuki", "Bhks"),
   ("Bopomofo", "Bopo"), ("Brahmi", "Brah"), ("Braille", "Brai"), ("Buginese", "Bugi"),
   ("Buhid", "Buhd"), ("Canadian_Aboriginal", "Cans"), ("Carian", "Cari"),
   ("Caucasian_Albanian", "Aghb"), ("Chakma", "Cakm"), ("Cham", "Cham"), ("Cherokee", "Cher"),
   ("Chorasmian", "Chrs"), ("Common", "Zyyy"), ("Coptic", "Copt"), ("Cuneiform", "Xsux"),
   ("Cypriot", "Cprt"), ("Cypro_Minoan", "Cpmn"), ("Cyrillic", "Cyrl"), ("Deseret", "Dsrt"),
   ("Devanagari", "Deva"), ("Dives_Akuru", "Diak"), ("Dogra", "Dogr"), ("Duployan", "Dupl"),
   ("Egyptian_Hieroglyphs", "Egyp"), ("Elbasan", "Elba"), ("Elymaic", "Elym"),
   ("Ethiopic", "Ethi"), ("Garay", "Gara"), ("Georgian", "Geor"), ("Glagolitic", "Glag"),
   ("Gothic", "Goth"), ("Grantha", "Gran"), ("Greek", "Grek"), ("Gujarati", "Gujr"),
   ("Gunjala_Gondi", "Gong"), ("Gurmukhi", "Guru"), ("Gurung_Khema", "Gukh"), ("Han", "Hani"),
   ("Hangul", "Hang"), ("Hanifi_Rohingya", "Rohg"), ("Hanunoo", "Hano"), ("Hatran", "Hatr"),
   ("Hebrew", "Hebr"), ("Hiragana", "Hira"), ("Imperial_Aramaic", "Armi"), ("Inherited", "Zinh"),
   ("Inscriptional_Pahlavi", "Phli"), ("Inscriptional_Parthian", "Prti"), ("Javanese", "Java"),
   ("Kaithi", "Kthi"), ("Kannada", "Knda"), ("Katakana", "Kana"), ("Kawi", "Kawi"),
   ("Kayah_Li", "Kali"), ("Kharoshthi", "Khar"), ("Khitan_Small_Script", "Kits"),
   ("Khmer", "Khmr"), ("Khojki", "Khoj"), ("Khudawadi", "Sind"), ("Kirat_Rai", "Krai"),
   ("Lao", "Laoo"), ("Latin", "Latn"), ("Lepcha", "Lepc"), ("Limbu", "Limb"),
   ("Linear_A", "Lina"), ("Linear_B", "Linb"), ("Lisu", "Lisu"), ("Lycian", "Lyci"),
   ("Lydian", "Lydi"), ("Mahajani", "Mahj"), ("Makasar", "Maka"), ("Malayalam", "Mlym"),
   ("Mandaic", "Mand"), ("Manichaean", "Mani"), ("Marchen", "Marc"), ("Masaram_Gondi", "Gonm"),
   ("Medefaidrin", "Medf"), ("Meetei_Mayek", "Mtei"), ("Mende_Kikakui", "Mend"),
   ("Meroitic_Cursive", "Merc"), ("Meroitic_Hieroglyphs", "Mero"), ("Miao", "Plrd"),
   ("Modi", "Modi"), ("Mongolian", "Mong"), ("Mro", "Mroo"), ("Multani", "Mult"),
   ("Myanmar", "Mymr"), ("Nabataean", "Nbat"), ("Nag_Mundari", "Nagm"), ("Nandinagari", "Nand"),
   ("New_Tai_Lue", "Talu"), ("Newa", "Newa"), ("Nko", "Nkoo"), ("Nushu", "Nshu"),
   ("Nyiakeng_Puachue_Hmong", "Hmnp"), ("Ogham", "Ogam"), ("Ol_Chiki", "Olck"),
   ("Ol_Onal", "Onao"), ("Old_Hungarian", "Hung"), ("Old_Italic", "Ital"),
   ("Old_North_Arabian", "Narb"), ("Old_Permic", "Perm"), ("Old_Persian", "Xpeo"),
   ("Old_Sogdian", "Sogo"), ("Old_South_Arabian", "Sarb"), ("Old_Turkic", "Orkh"),
   ("Old_Uyghur", "Ougr"), ("Oriya", "Orya"), ("Osage", "Osge"), ("Osmanya", "Osma"),
   ("Pahawh_Hmong", "Hmng"), ("Palmyrene", "Palm"), ("Pau_Cin_Hau", "Pauc"), ("Phags_Pa", "Phag"),
   ("Phoenician", "Phnx"), ("Psalter_Pahlavi", "Phlp"), ("Qaac", "Copt"), ("Qaai", "Zinh"),
   ("Rejang", "Rjng"), ("Runic", "Runr"), ("Samaritan", "Samr"), ("Saurashtra", "Saur"),
   ("Sharada", "Shrd"), ("Shavian", "Shaw"), ("Siddham", "Sidd"), ("SignWriting", "Sgnw"),
   ("Sinhala", "Sinh"), ("Sogdian", "Sogd"), ("Sora_Sompeng", "Sora"), ("Soyombo", "Soyo"),
   ("Sundanese", "Sund"), ("Sunuwar", "Sunu"), ("Syloti_Nagri", "Sylo"), ("Syriac", "Syrc"),
   ("Tagalog", "Tglg"), ("Tagbanwa", "Tagb"), ("Tai_Le", "Tale"), ("Tai_Tham", "Lana"),
   ("Tai_Viet", "Tavt"), ("Takri", "Takr"), ("Tamil", "Taml"), ("Tangsa", "Tnsa"),
   ("Tangut", "Tang"), ("Telugu", "Telu"), ("Thaana", "Thaa"), ("Thai", "Thai"),
   ("Tibetan", "Tibt"), ("Tifinagh", "Tfng"), ("Tirhuta", "Tirh"), ("Todhri", "Todr"),
   ("Toto", "Toto"), ("Tulu_Tigalari", "Tutg"), ("Ugaritic", "Ugar"), ("Vai", "Vaii"),
   ("Vithkuqi", "Vith"), ("Wancho", "Wcho"), ("Warang_Citi", "Wara"), ("Yezidi", "Yezi"),
   ("Yi", "Yiii"), ("Zanabazar_Square", "Zanb")]

/-! ## 2. The script of a character -/

/-- The runs of code points of one script, from zero on: the code of the script and the length of
    the run, where that is not one. -/
def scriptTable : String := String.join
  ["Zyyy65Latn26Zyyy6Latn26Zyyy47LatnZyyy15LatnZyyy5Latn23ZyyyLatn31ZyyyLatn449Zyyy39Latn5Zyyy",
   "5Bopo2Zyyy20Zinh112Grek4ZyyyGrek3Zzzz2Grek4ZyyyGrekZzzz4GrekZyyyGrekZyyyGrek3ZzzzGrekZzzzG",
   "rek20ZzzzGrek63Copt14Grek16Cyrl133Zinh2Cyrl169ZzzzArmn38Zzzz2Armn50Zzzz2Armn3ZzzzHebr55Zzz",
   "z8Hebr27Zzzz4Hebr6Zzzz11Arab5ZyyyArab6ZyyyArab14ZyyyArab3ZyyyArab32ZyyyArab10Zinh11Arab26Z",
   "inhArab108ZyyyArab34Syrc14ZzzzSyrc60Zzzz2Syrc3Arab48Thaa50Zzzz14Nkoo59Zzzz2Nkoo3Samr46Zzzz",
   "2Samr15ZzzzMand28Zzzz2MandZzzzSyrc11Zzzz5Arab31ZzzzArab2Zzzz5Arab75ZyyyArab29Deva81Zinh4De",
   "va15Zyyy2Deva26Beng4ZzzzBeng8Zzzz2Beng2Zzzz2Beng22ZzzzBeng7ZzzzBengZzzz3Beng4Zzzz2Beng9Zzz",
   "z2Beng2Zzzz2Beng4Zzzz8BengZzzz4Beng2ZzzzBeng5Zzzz2Beng25Zzzz2Guru3ZzzzGuru6Zzzz4Guru2Zzzz2",
   "Guru22ZzzzGuru7ZzzzGuru2ZzzzGuru2ZzzzGuru2Zzzz2GuruZzzzGuru5Zzzz4Guru2Zzzz2Guru3Zzzz3GuruZ",
   "zzz7Guru4ZzzzGuruZzzz7Guru17Zzzz10Gujr3ZzzzGujr9ZzzzGujr3ZzzzGujr22ZzzzGujr7ZzzzGujr2ZzzzG",
   "ujr5Zzzz2Gujr10ZzzzGujr3ZzzzGujr3Zzzz2GujrZzzz15Gujr4Zzzz2Gujr12Zzzz7Gujr7ZzzzOrya3ZzzzOry",
   "a8Zzzz2Orya2Zzzz2Orya22ZzzzOrya7ZzzzOrya2ZzzzOrya5Zzzz2Orya9Zzzz2Orya2Zzzz2Orya3Zzzz7Orya3",
   "Zzzz4Orya2ZzzzOrya5Zzzz2Orya18Zzzz10Taml2ZzzzTaml6Zzzz3Taml3ZzzzTaml4Zzzz3Taml2ZzzzTamlZzz",
   "zTaml2Zzzz3Taml2Zzzz3Taml3Zzzz3Taml12Zzzz4Taml5Zzzz3Taml3ZzzzTaml4Zzzz2TamlZzzz6TamlZzzz14",
   "Taml21Zzzz5Telu13ZzzzTelu3ZzzzTelu23ZzzzTelu16Zzzz2Telu9ZzzzTelu3ZzzzTelu4Zzzz7Telu2ZzzzTe",
   "lu3Zzzz2TeluZzzz2Telu4Zzzz2Telu10Zzzz7Telu9Knda13ZzzzKnda3ZzzzKnda23ZzzzKnda10ZzzzKnda5Zzz",
   "z2Knda9ZzzzKnda3ZzzzKnda4Zzzz7Knda2Zzzz6Knda2ZzzzKnda4Zzzz2Knda10ZzzzKnda3Zzzz12Mlym13Zzzz",
   "Mlym3ZzzzMlym51ZzzzMlym3ZzzzMlym6Zzzz4Mlym16Zzzz2Mlym26ZzzzSinh3ZzzzSinh18Zzzz3Sinh24ZzzzS",
   "inh9ZzzzSinhZzzz2Sinh7Zzzz3SinhZzzz4Sinh6ZzzzSinhZzzzSinh8Zzzz6Sinh10Zzzz2Sinh3Zzzz12Thai5",
   "8Zzzz4ZyyyThai28Zzzz37Laoo2ZzzzLaooZzzzLaoo5ZzzzLaoo24ZzzzLaooZzzzLaoo23Zzzz2Laoo5ZzzzLaoo",
   "ZzzzLaoo7ZzzzLaoo10Zzzz2Laoo4Zzzz32Tibt72ZzzzTibt36Zzzz4Tibt39ZzzzTibt36ZzzzTibt15ZzzzTibt",
   "7Zyyy4Tibt2Zzzz37Mymr160Geor38ZzzzGeorZzzz5GeorZzzz2Geor43ZyyyGeor4Hang256Ethi73ZzzzEthi4Z",
   "zzz2Ethi7ZzzzEthiZzzzEthi4Zzzz2Ethi41ZzzzEthi4Zzzz2Ethi33ZzzzEthi4Zzzz2Ethi7ZzzzEthiZzzzEt",
   "hi4Zzzz2Ethi15ZzzzEthi57ZzzzEthi4Zzzz2Ethi67Zzzz2Ethi32Zzzz3Ethi26Zzzz6Cher86Zzzz2Cher6Zzz",
   "z2Cans640Ogam29Zzzz3Runr75Zyyy3Runr11Zzzz7Tglg22Zzzz9TglgHano21Zyyy2Zzzz9Buhd20Zzzz12Tagb1",
   "3ZzzzTagb3ZzzzTagb2Zzzz12Khmr94Zzzz2Khmr10Zzzz6Khmr10Zzzz6Mong2Zyyy2MongZyyyMong20Zzzz6Mon",
   "g89Zzzz7Mong43Zzzz5Cans70Zzzz10Limb31ZzzzLimb12Zzzz4Limb12Zzzz4LimbZzzz3Limb12Tale30Zzzz2T",
   "ale5Zzzz11Talu44Zzzz4Talu26Zzzz6Talu11Zzzz3Talu2Khmr32Bugi28Zzzz2Bugi2Lana63ZzzzLana29Zzzz",
   "2Lana11Zzzz6Lana10Zzzz6Lana14Zzzz2Zinh31Zzzz49Bali77ZzzzBali50Sund64Batk52Zzzz8Batk4Lepc56",
   "Zzzz3Lepc15Zzzz3Lepc3Olck48Cyrl11Zzzz5Geor43Zzzz2Geor3Sund8Zzzz8Zinh3ZyyyZinh13ZyyyZinh7Zy",
   "yy4ZinhZyyy6ZinhZyyy3Zinh2ZyyyZzzz5Latn38Grek5CyrlLatn49Grek5Latn4Grek5Latn13CyrlLatn70Gre",
   "kZinh64Latn256Grek22Zzzz2Grek6Zzzz2Grek38Zzzz2Grek6Zzzz2Grek8ZzzzGrekZzzzGrekZzzzGrekZzzzG",
   "rek31Zzzz2Grek53ZzzzGrek15ZzzzGrek14Zzzz2Grek6ZzzzGrek19Zzzz2Grek3ZzzzGrek9ZzzzZyyy12Zinh2",
   "Zyyy87ZzzzZyyy11LatnZzzz2Zyyy11LatnZyyy15ZzzzLatn13Zzzz3Zyyy33Zzzz15Zinh33Zzzz15Zyyy38Grek",
   "Zyyy3Latn2Zyyy6LatnZyyy27LatnZyyy17Latn41Zyyy3Zzzz4Zyyy666Zzzz22Zyyy11Zzzz21Zyyy928Brai256",
   "Zyyy628Zzzz2Zyyy32ZzzzZyyy105Glag96Latn32Copt116Zzzz5Copt7Geor38ZzzzGeorZzzz5GeorZzzz2Tfng",
   "56Zzzz7Tfng2Zzzz14TfngEthi23Zzzz9Ethi7ZzzzEthi7ZzzzEthi7ZzzzEthi7ZzzzEthi7ZzzzEthi7ZzzzEth",
   "i7ZzzzEthi7ZzzzCyrl32Zyyy94Zzzz34Hani26ZzzzHani89Zzzz12Hani214Zzzz26Zyyy21HaniZyyyHaniZyyy",
   "25Hani9Zinh4Hang2Zyyy8Hani4Zyyy4ZzzzHira86Zzzz2Zinh2Zyyy2Hira3ZyyyKana90Zyyy2Kana3Zzzz5Bop",
   "o43ZzzzHang94ZzzzZyyy16Bopo32Zyyy38Zzzz9ZyyyKana16Hang31ZzzzZyyy64Hang31Zyyy81Kana47ZyyyKa",
   "na88Zyyy168Hani6592Zyyy64Hani20992Yiii1165Zzzz3Yiii55Zzzz9Lisu48Vaii300Zzzz20Cyrl96Bamu88Z",
   "zzz8Zyyy34Latn102Zyyy3Latn67Zzzz2Latn2ZzzzLatnZzzzLatn8Zzzz21Latn14Sylo45Zzzz3Zyyy10Zzzz6P",
   "hag56Zzzz8Saur70Zzzz8Saur12Zzzz6Deva32Kali46ZyyyKaliRjng36Zzzz11RjngHang29Zzzz3Java78ZzzzZ",
   "yyyJava10Zzzz4Java2Mymr31ZzzzCham55Zzzz9Cham14Zzzz2Cham10Zzzz2Cham4Mymr32Tavt67Zzzz24Tavt5",
   "Mtei23Zzzz10Ethi6Zzzz2Ethi6Zzzz2Ethi6Zzzz9Ethi7ZzzzEthi7ZzzzLatn43ZyyyLatn9GrekLatn4Zyyy2Z",
   "zzz4Cher80Mtei46Zzzz2Mtei10Zzzz6Hang11172Zzzz12Hang23Zzzz4Hang49Zzzz8452Hani366Zzzz2Hani10",
   "6Zzzz38Latn7Zzzz12Armn5Zzzz5Hebr26ZzzzHebr5ZzzzHebrZzzzHebr2ZzzzHebr2ZzzzHebr10Arab115Zzzz",
   "16Arab363Zyyy2Arab80Zzzz2Arab54Zzzz7ArabZzzz32Arab16Zinh16Zyyy10Zzzz6Zinh14Cyrl2Zyyy35Zzzz",
   "Zyyy19ZzzzZyyy4Zzzz4Arab5ZzzzArab135Zzzz2ZyyyZzzzZyyy32Latn26Zyyy6Latn26Zyyy11Kana10ZyyyKa",
   "na45Zyyy2Hang31Zzzz3Hang6Zzzz2Hang6Zzzz2Hang6Zzzz2Hang3Zzzz3Zyyy7ZzzzZyyy7Zzzz10Zyyy5Zzzz2",
   "Linb12ZzzzLinb26ZzzzLinb19ZzzzLinb2ZzzzLinb15Zzzz2Linb14Zzzz34Linb123Zzzz5Zyyy3Zzzz4Zyyy45",
   "Zzzz3Zyyy9Grek79ZzzzZyyy13Zzzz3GrekZzzz47Zyyy45ZinhZzzz130Lyci29Zzzz3Cari49Zzzz15ZinhZyyy2",
   "7Zzzz4Ital36Zzzz9Ital3Goth27Zzzz5Perm43Zzzz5Ugar30ZzzzUgarXpeo36Zzzz4Xpeo14Zzzz42Dsrt80Sha",
   "w48Osma30Zzzz2Osma10Zzzz6Osge36Zzzz4Osge36Zzzz4Elba40Zzzz8Aghb52Zzzz11AghbVith11ZzzzVith15",
   "ZzzzVith7ZzzzVith2ZzzzVith11ZzzzVith15ZzzzVith7ZzzzVith2Zzzz3Todr52Zzzz12Lina311Zzzz9Lina2",
   "2Zzzz10Lina8Zzzz24Latn6ZzzzLatn42ZzzzLatn9Zzzz69Cprt6Zzzz2CprtZzzzCprt44ZzzzCprt2Zzzz3Cprt",
   "Zzzz2CprtArmi22ZzzzArmi9Palm32Nbat31Zzzz8Nbat9Zzzz48Hatr19ZzzzHatr2Zzzz5Hatr5Phnx28Zzzz3Ph",
   "nxLydi26Zzzz5LydiZzzz64Mero32Merc24Zzzz4Merc20Zzzz2Merc46Khar4ZzzzKhar2Zzzz5Khar8ZzzzKhar3",
   "ZzzzKhar29Zzzz2Khar3Zzzz4Khar10Zzzz7Khar9Zzzz7Sarb32Narb32Zzzz32Mani39Zzzz4Mani12Zzzz9Avst",
   "54Zzzz3Avst7Prti22Zzzz2Prti8Phli19Zzzz5Phli8Phlp18Zzzz7Phlp4Zzzz12Phlp7Zzzz80Orkh73Zzzz55H",
   "ung51Zzzz13Hung51Zzzz7Hung6Rohg40Zzzz8Rohg10Zzzz6Gara38Zzzz3Gara29Zzzz8Gara2Zzzz208Arab31Z",
   "zzzYezi42ZzzzYezi3Zzzz2Yezi2Zzzz16Arab3Zzzz55Arab4Sogo40Zzzz8Sogd42Zzzz22Ougr26Zzzz38Chrs2",
   "8Zzzz20Elym23Zzzz9Brah78Zzzz4Brah36Zzzz9BrahKthi67Zzzz10KthiZzzz2Sora25Zzzz7Sora10Zzzz6Cak",
   "m53ZzzzCakm18Zzzz8Mahj39Zzzz9Shrd96ZzzzSinh20Zzzz11Khoj18ZzzzKhoj47Zzzz62Mult7ZzzzMultZzzz",
   "Mult4ZzzzMult15ZzzzMult11Zzzz6Sind59Zzzz5Sind10Zzzz6Gran4ZzzzGran8Zzzz2Gran2Zzzz2Gran22Zzz",
   "zGran7ZzzzGran2ZzzzGran5ZzzzZinhGran9Zzzz2Gran2Zzzz2Gran3Zzzz2GranZzzz6GranZzzz5Gran7Zzzz2",
   "Gran7Zzzz3Gran5Zzzz11Tutg10ZzzzTutgZzzz2TutgZzzzTutg38ZzzzTutg10ZzzzTutgZzzz2TutgZzzzTutg4",
   "ZzzzTutg10ZzzzTutg2Zzzz8Tutg2Zzzz29Newa92ZzzzNewa5Zzzz30Tirh72Zzzz8Tirh10Zzzz166Sidd54Zzzz",
   "2Sidd38Zzzz34Modi69Zzzz11Modi10Zzzz6Mong13Zzzz19Takr58Zzzz6Takr10Zzzz6Mymr20Zzzz28Ahom27Zz",
   "zz2Ahom15Zzzz4Ahom23Zzzz185Dogr60Zzzz100Wara83Zzzz12WaraDiak7Zzzz2DiakZzzz2Diak8ZzzzDiak2Z",
   "zzzDiak30ZzzzDiak2Zzzz2Diak12Zzzz9Diak10Zzzz70Nand8Zzzz2Nand46Zzzz2Nand11Zzzz27Zanb72Zzzz8",
   "Soyo83Zzzz13Cans16Pauc57Zzzz7Deva10Zzzz182Sunu34Zzzz14Sunu10Zzzz6Bhks9ZzzzBhks45ZzzzBhks14",
   "Zzzz10Bhks29Zzzz3Marc32Zzzz2Marc22ZzzzMarc14Zzzz73Gonm7ZzzzGonm2ZzzzGonm44Zzzz3GonmZzzzGon",
   "m2ZzzzGonm9Zzzz8Gonm10Zzzz6Gong6ZzzzGong2ZzzzGong37ZzzzGong2ZzzzGong6Zzzz7Gong10Zzzz310Mak",
   "a25Zzzz7Kawi17ZzzzKawi41Zzzz3Kawi29Zzzz85LisuZzzz15Taml50Zzzz13TamlXsux922Zzzz102Xsux111Zz",
   "zzXsux5Zzzz11Xsux196Zzzz2636Cpmn99Zzzz13Egyp1110Zzzz10Egyp3995Zzzz5Hluw583Zzzz6841Gukh58Zz",
   "zz1734Bamu569Zzzz7Mroo31ZzzzMroo10Zzzz4Mroo2Tnsa79ZzzzTnsa10Zzzz6Bass30Zzzz2Bass6Zzzz10Hmn",
   "g70Zzzz10Hmng10ZzzzHmng7ZzzzHmng21Zzzz5Hmng19Zzzz432Krai58Zzzz198Medf91Zzzz101Plrd75Zzzz4P",
   "lrd57Zzzz7Plrd17Zzzz64TangNshuHani2KitsZzzz11Hani2Zzzz14Tang6136Zzzz8Tang768Kits470Zzzz41K",
   "itsTang9Zzzz8935Kana4ZzzzKana7ZzzzKana2ZzzzKanaHira287Kana3Zzzz15HiraZzzz29Hira3Zzzz2KanaZ",
   "zzz14Kana4Zzzz8Nshu396Zzzz2308Dupl107Zzzz5Dupl13Zzzz3Dupl9Zzzz7Dupl10Zzzz2Dupl4Zyyy4Zzzz39",
   "32Zyyy250Zzzz6Zyyy436Zzzz76Zinh46Zzzz2Zinh23Zzzz9Zyyy116Zzzz60Zyyy246Zzzz10Zyyy39Zzzz2Zyyy",
   "62Zinh3Zyyy17Zinh8Zyyy2Zinh7Zyyy30Zinh4Zyyy61Zzzz21Grek70Zzzz122Zyyy20Zzzz12Zyyy20Zzzz12Zy",
   "yy87Zzzz9Zyyy25Zzzz135Zyyy85ZzzzZyyy71ZzzzZyyy2Zzzz2ZyyyZzzz2Zyyy2Zzzz2Zyyy4ZzzzZyyy12Zzzz",
   "ZyyyZzzzZyyy7ZzzzZyyy65ZzzzZyyy4Zzzz2Zyyy8ZzzzZyyy7ZzzzZyyy28ZzzzZyyy4ZzzzZyyy5ZzzzZyyyZzz",
   "z3Zyyy7ZzzzZyyy340Zzzz2Zyyy292Zzzz2Zyyy50Sgnw652Zzzz15Sgnw5ZzzzSgnw15Zzzz1104Latn31Zzzz6La",
   "tn6Zzzz213Glag7ZzzzGlag17Zzzz2Glag7ZzzzGlag2ZzzzGlag5Zzzz5Cyrl62Zzzz33CyrlZzzz112Hmnp45Zzz",
   "z3Hmnp14Zzzz2Hmnp10Zzzz4Hmnp2Zzzz320Toto31Zzzz17Wcho58Zzzz5WchoZzzz464Nagm42Zzzz214Onao43Z",
   "zzz4OnaoZzzz480Ethi7ZzzzEthi4ZzzzEthi2ZzzzEthi15ZzzzMend197Zzzz2Mend16Zzzz41Adlm76Zzzz4Adl",
   "m10Zzzz4Adlm2Zzzz785Zyyy68Zzzz76Zyyy61Zzzz194Arab4ZzzzArab27ZzzzArab2ZzzzArabZzzz2ArabZzzz",
   "Arab10ZzzzArab4ZzzzArabZzzzArabZzzz6ArabZzzz4ArabZzzzArabZzzzArabZzzzArab3ZzzzArab2ZzzzAra",
   "bZzzz2ArabZzzzArabZzzzArabZzzzArabZzzzArabZzzzArab2ZzzzArabZzzz2Arab4ZzzzArab7ZzzzArab4Zzz",
   "zArab4ZzzzArabZzzzArab10ZzzzArab17Zzzz5Arab3ZzzzArab5ZzzzArab17Zzzz52Arab2Zzzz270Zyyy44Zzz",
   "z4Zyyy100Zzzz12Zyyy15Zzzz2Zyyy15ZzzzZyyy15ZzzzZyyy37Zzzz10Zyyy174Zzzz56Zyyy26HiraZyyy2Zzzz",
   "13Zyyy44Zzzz4Zyyy9Zzzz7Zyyy2Zzzz14Zyyy6Zzzz154Zyyy984Zzzz4Zyyy17Zzzz3Zyyy13Zzzz3Zyyy119Zzz",
   "z4Zyyy95Zzzz6Zyyy12Zzzz4ZyyyZzzz15Zyyy12Zzzz4Zyyy56Zzzz8Zyyy10Zzzz6Zyyy40Zzzz8Zyyy30Zzzz2Z",
   "yyy12Zzzz4Zyyy2Zzzz62Zyyy340Zzzz12Zyyy14Zzzz2Zyyy13Zzzz3Zyyy10Zzzz5Zyyy56Zzzz7Zyyy15Zzzz2Z",
   "yyy11Zzzz6Zyyy9Zzzz7Zyyy147ZzzzZyyy102Zzzz1030Hani42720Zzzz32Hani4154Zzzz6Hani222Zzzz2Hani",
   "5762Zzzz14Hani7473Zzzz15Hani622Zzzz2466Hani542Zzzz1506Hani4939Zzzz5Hani4192Zzzz711761ZyyyZ",
   "zzz30Zyyy96Zzzz128Zinh240Zzzz196112"]

/-- The table, ready for search. -/
def scriptRuns : Runs String := Runs.ofText 4 String.ofList scriptTable

/-- The characters of the script with a code. -/
def ofScript (code : String) : CharSet := scriptRuns.those (· == code)

/-! ## 3. Script extensions -/

/-- The characters used with other scripts than their own alone, each range with the codes of
    those scripts. -/
def extensions : List (String × String) :=
  [("B7", "Avst Cari Copt Dupl Elba Geor Glag Gong Goth Grek Hani Latn Lydi Mahj Perm Shaw"),
   ("2BC", "Beng Cyrl Deva Latn Lisu Thai Toto"),
   ("2C7 2C9-2CB 2D9", "Bopo Latn"),
   ("2CD", "Latn Lisu"),
   ("2D7", "Latn Thai"),
   ("300", "Cher Copt Cyrl Grek Latn Perm Sunu Tale"),
   ("301", "Cher Cyrl Grek Latn Osge Sunu Tale Todr"),
   ("302", "Cher Cyrl Latn Tfng"),
   ("303", "Glag Latn Sunu Syrc Thai"),
   ("304", "Aghb Cher Copt Cyrl Goth Grek Latn Osge Syrc Tfng Todr"),
   ("305", "Copt Elba Glag Goth Kana Latn"),
   ("306", "Cyrl Grek Latn Perm Tfng"),
   ("307", "Copt Dupl Hebr Latn Perm Syrc Tale Tfng Todr"),
   ("308", "Armn Cyrl Dupl Goth Grek Hebr Latn Perm Syrc Tale Tfng"),
   ("309", "Latn Tfng"),
   ("30A", "Dupl Latn Syrc"),
   ("30B", "Cher Cyrl Latn Osge"),
   ("30C", "Cher Latn Tale"),
   ("30D 310", "Latn Sunu"),
   ("30E", "Ethi Latn"),
   ("311", "Cyrl Latn Todr"),
   ("313", "Grek Latn Perm Todr"),
   ("323", "Cher Dupl Kana Latn Syrc Tfng"),
   ("324", "Cher Dupl Latn Syrc"),
   ("325 32E", "Latn Syrc"),
   ("32D", "Latn Sunu Syrc"),
   ("330", "Cher Latn Syrc"),
   ("331", "Aghb Cher Goth Latn Sunu Syrc Thai"),
   ("342 345 1DC0-1DC1", "Grek"),
   ("358", "Latn Osge"),
   ("35E", "Aghb Latn Todr"),
   ("363-36F", "Latn"),
   ("374-375", "Copt Grek"),
   ("483", "Cyrl Perm"),
   ("484 487 2E43 A66F", "Cyrl Glag"),
   ("485-486", "Cyrl Latn"),
   ("589", "Armn Geor Glag"),
   ("60C 61B", "Arab Gara Nkoo Rohg Syrc Thaa Yezi"),
   ("61C", "Arab Syrc Thaa"),
   ("61F", "Adlm Arab Gara Nkoo Rohg Syrc Thaa Yezi"),
   ("640", "Adlm Arab Mand Mani Ougr Phlp Rohg Sogd Syrc"),
   ("64B-655 670", "Arab Syrc"),
   ("660-669", "Arab Thaa Yezi"),
   ("6D4", "Arab Rohg"),
   ("951", "Beng Deva Gran Gujr Guru Knda Latn Mlym Nand Newa Orya Shrd Taml Telu Tirh"),
   ("952", "Beng Deva Gran Gujr Guru Knda Latn Mlym Newa Orya Taml Telu Tirh"),
   ("964",
     String.join
      ["Beng Deva Dogr Gong Gonm Gran Gujr Guru Knda Mahj Mlym Nand Onao Orya Sind Sinh Sylo ",
       "Takr Taml Telu Tirh"]),
   ("965",
     String.join
      ["Beng Deva Dogr Gong Gonm Gran Gujr Gukh Guru Knda Limb Mahj Mlym Nand Onao Orya Sind ",
       "Sinh Sylo Takr Taml Telu Tirh"]),
   ("966-96F", "Deva Dogr Kthi Mahj"),
   ("9E6-9EF", "Beng Cakm Sylo"),
   ("A66-A6F", "Guru Mult"),
   ("AE6-AEF", "Gujr Khoj"),
   ("BE6-BF3 11301 11303 1133B-1133C 11FD0-11FD1 11FD3", "Gran Taml"),
   ("CE6-CEF", "Knda Nand Tutg"),
   ("1040-1049", "Cakm Mymr Tale"),
   ("10FB", "Geor Glag Latn"),
   ("16EB-16ED", "Runr"),
   ("1735-1736", "Buhd Hano Tagb Tglg"),
   ("1802-1803 1805", "Mong Phag"),
   ("1CD0 1CD2", "Beng Deva Gran Knda"),
   ("1CD1 1CD4 1CDB 1CDE-1CDF 1CE3-1CE8 1CEC 1CEE-1CF1", "Deva"),
   ("1CD3", "Deva Gran Knda"),
   ("1CD5", "Beng Deva Newa Telu Tirh"),
   ("1CD6", "Beng Deva Telu"),
   ("1CD7", "Deva Newa Shrd"),
   ("1CD8", "Beng Deva Newa Telu"),
   ("1CD9 1CDC-1CDD 1CE0", "Deva Shrd"),
   ("1CDA", "Deva Knda Mlym Orya Taml Telu"),
   ("1CE1 1CF5-1CF6", "Beng Deva"),
   ("1CE2", "Deva Newa Tirh"),
   ("1CE9", "Deva Nand Newa"),
   ("1CEA", "Beng Deva Shrd"),
   ("1CEB", "Deva Newa"),
   ("1CED", "Beng Deva Newa Shrd"),
   ("1CF2", "Beng Deva Gran Knda Mlym Nand Orya Sinh Telu Tirh Tutg"),
   ("1CF3 1CF8-1CF9", "Deva Gran"),
   ("1CF4", "Deva Gran Knda Tutg"),
   ("1CF7", "Beng"),
   ("1CFA", "Nand"),
   ("1DF8", "Cyrl Latn Syrc"),
   ("1DFA", "Syrc"),
   ("202F", "Latn Mong Phag"),
   ("204F", "Adlm Arab"),
   ("205A", "Cari Geor Glag Hung Lyci Orkh"),
   ("205D", "Cari Grek Hung Mero"),
   ("20F0", "Deva Gran Latn"),
   ("2E17", "Copt Latn"),
   ("2E30", "Avst Orkh"),
   ("2E31", "Avst Cari Geor Hung Kthi Lydi Samr"),
   ("2E3C 1BCA0-1BCA3", "Dupl"),
   ("2E41", "Adlm Arab Hung"),
   ("2FF0-2FFF 31EF", "Hani Tang"),
   ("3001", "Bopo Hang Hani Hira Kana Mong Yiii"),
   ("3002", "Bopo Hang Hani Hira Kana Mong Phag Yiii"),
   ("3003 3013 301C-301F 3030 3037 FE45-FE46", "Bopo Hang Hani Hira Kana"),
   (String.join
      ["3006 303E-303F 3190-319F 31C0-31E5 3220-3247 3280-32B0 32C0-32CB 32FF 3358-3370 ",
       "337B-337F 33E0-33FE 1D360-1D371 1F250-1F251"],
     "Hani"),
   ("3008-3009", "Bopo Hang Hani Hira Kana Mong Tibt Yiii"),
   ("300A-300B", "Bopo Hang Hani Hira Kana Lisu Mong Tibt Yiii"),
   ("300C-3011 3014-301B 30FB FF61-FF65", "Bopo Hang Hani Hira Kana Yiii"),
   ("302A-302D", "Bopo Hani"),
   ("3031-3035 3099-309C 30A0 30FC FF70 FF9E-FF9F", "Hira Kana"),
   ("303C-303D", "Hani Hira Kana"),
   ("A700-A707", "Hani Latn"),
   ("A830-A832", "Deva Dogr Gujr Guru Khoj Knda Kthi Mahj Mlym Modi Nand Shrd Sind Takr Tirh Tutg"),
   ("A833-A835", "Deva Dogr Gujr Guru Khoj Knda Kthi Mahj Modi Nand Shrd Sind Takr Tirh Tutg"),
   ("A836-A837 A839", "Deva Dogr Gujr Guru Khoj Kthi Mahj Modi Sind Takr Tirh"),
   ("A838", "Deva Dogr Gujr Guru Khoj Kthi Mahj Modi Shrd Sind Takr Tirh"),
   ("A8F1", "Beng Deva Tutg"),
   ("A8F3", "Deva Taml"),
   ("A92E", "Kali Latn Mymr"),
   ("A9CF", "Bugi Java"),
   ("FD3E-FD3F", "Arab Nkoo"),
   ("FDF2 FDFD", "Arab Thaa"),
   ("10100-10101", "Cpmn Cprt Linb"),
   ("10102 10137-1013F", "Cprt Linb"),
   ("10107-10133", "Cprt Lina Linb"),
   ("102E0-102FB", "Arab Copt"),
   ("10AF2", "Mani Ougr")]

/-- The characters of `extensions` whose list of codes satisfies `p`. -/
def extended (p : List String → Bool) : CharSet :=
  .unionAll ((extensions.filter fun row => p (row.2.splitOn " ")).map fun row => .ofText row.1)

/-- The characters used with the script that has a code. -/
def ofScriptExtension (code : String) : CharSet :=
  ((ofScript code).diff (extended fun _ => true)).union (extended (·.contains code))

end Sift.Unicode
